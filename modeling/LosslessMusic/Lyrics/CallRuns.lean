import LosslessMusic.Lyrics.CallGraph
import LosslessMusic.Transition.Machine
import Mathlib.Data.List.Perm.Basic

/-!
# Runs of the lyrics calls

Threads create graphs and nodes, let nodes wait for each other and drop the waits again, in any
order. The lock makes each call one step.
-/

namespace LosslessMusic.Lyrics.Calls

open Storage Waiting Relation Transition

/-- `CallGraph`, with the poison of its lock. -/
structure CallGraph where
  state : State := {}
  poisoned : Bool := false

/-- A critical section. None is entered through a poisoned lock, and a panic poisons it; no

section has changed the state where it panics. -/
def CallGraph.locked {α : Type} (graph : CallGraph)
    (critical : State → Except Fault (α × State)) : Except Fault α × CallGraph :=
  if graph.poisoned then (.error (.panicked "lyrics dependency lock"), graph)
  else
    match critical graph.state with
    | .ok (value, state) => (.ok value, { graph with state })
    | .error (.refused message) => (.error (.refused message), graph)
    | .error (.panicked message) => (.error (.panicked message), { graph with poisoned := true })

namespace CallGraph

variable {α : Type} {graph : CallGraph} {critical : State → Except Fault (α × State)}

theorem locked_poisoned (poisoned : graph.poisoned = true) :
    graph.locked critical = (.error (.panicked "lyrics dependency lock"), graph) :=
  if_pos poisoned

theorem locked_of_ok (healthy : graph.poisoned = false) {value : α} {state : State}
    (entered : critical graph.state = .ok (value, state)) :
    graph.locked critical = (.ok value, { graph with state }) := by
  unfold locked
  rw [healthy, entered]
  rfl

theorem locked_of_refused (healthy : graph.poisoned = false) {message : String}
    (refused : critical graph.state = .error (.refused message)) :
    graph.locked critical = (.error (.refused message), graph) := by
  unfold locked
  rw [healthy, refused]
  rfl

end CallGraph

/-- `CallNode`: a graph by its place, and an id. -/
structure CallNode where
  graph : Nat
  id : Nat
  deriving DecidableEq

structure CallWait where
  caller : CallNode
  target : CallNode
  deriving DecidableEq

/-- A wait between two nodes of a graph. -/
abbrev CallWait.within (graph caller target : Nat) : CallWait :=
  ⟨⟨graph, caller⟩, ⟨graph, target⟩⟩

/-- The graphs, and the waits that are not dropped. -/
structure System where
  graphs : List CallGraph := []
  waits : List CallWait := []

/-- What a thread calls. -/
inductive Call
  | graph
  | node (graph : Nat)
  | waitFor (caller target : CallNode)
  | drop (position : Nat)

/-- What a call gives. -/
inductive Given
  | graph
  | node (node : CallNode)
  | wait
  | dropped
  deriving DecidableEq

namespace System

/-- A critical section of one of the graphs. -/
def locked {α : Type} (s : System) (index : Nat) (critical : State → Except Fault (α × State)) :
    Option (Except Fault α × System) :=
  s.graphs[index]?.map fun graph =>
    ((graph.locked critical).1, { s with graphs := s.graphs.set index (graph.locked critical).2 })

/-- The node has been created. -/
def has (s : System) (node : CallNode) : Bool :=
  s.graphs[node.graph]?.any (node.id < ·.state.next)

/-- How many handles of the node there are at least: that of a call and those of the waits. -/
def handles (s : System) (node : CallNode) : Nat :=
  1 + s.waits.countP (·.caller = node) + s.waits.countP (·.target = node)

def node (s : System) (index : Nat) : Option (Except Fault Given × System) :=
  (s.locked index State.node).map fun (answer, next) =>
    (answer.map fun id => .node ⟨index, id⟩, next)

/-- `CallNode::wait_for`. To clone one of too many handles aborts the process. -/
def waitFor (isizeMax : Nat) (s : System) (caller target : CallNode) :
    Option (Except Fault Given × System) :=
  if !s.has caller || !s.has target then none
  else if caller.graph ≠ target.graph then
    some (.error (.refused "lyrics caller belongs to a different backend"), s)
  else
    match s.locked caller.graph (State.waitFor isizeMax caller.id target.id) with
    | none => none
    | some (.error fault, next) => some (.error fault, next)
    | some (.ok _, next) =>
      if isizeMax < s.handles caller ∨ isizeMax < s.handles target then none
      else some (.ok .wait, { next with waits := s.waits ++ [⟨caller, target⟩] })

def drop (isizeMax : Nat) (s : System) (position : Nat) :
    Option (Except Fault Given × System) :=
  s.waits[position]?.bind fun wait =>
    (s.locked wait.caller.graph (State.drop isizeMax wait.caller.id wait.target.id)).map
      fun (answer, next) =>
        (answer.map fun _ => .dropped, { next with waits := s.waits.eraseIdx position })

/-- A call, where it can be made. -/
def call (isizeMax : Nat) (s : System) : Call → Option (Except Fault Given × System)
  | .graph => some (.ok .graph, { s with graphs := s.graphs ++ [{}] })
  | .node index => s.node index
  | .waitFor caller target => s.waitFor isizeMax caller target
  | .drop position => s.drop isizeMax position

/-- The calls of all threads. -/
def machine (isizeMax : Nat) : Machine System Call where
  Start s := s = {}
  step s call := (s.call isizeMax call).map Prod.snd

/-! ## What is promised -/

/-- The edges of a graph count the waits that are alive and close no cycle, a wait is refused
exactly where it would close one, and each wait can be dropped. -/
structure Orderly (isizeMax : Nat) (s : System) (index : Nat) (graph : CallGraph) : Prop where
  counted : ∀ caller target, graph.state.edges.count? caller target =
    let alive := s.waits.count (.within index caller target)
    if alive = 0 then none else some alive
  full : ∀ caller targets, graph.state.edges.get? caller = some targets → targets.size ≠ 0
  acyclic : Acyclic graph.state.edges.HasEdge
  refused : ∀ caller target, s.has ⟨index, caller⟩ → s.has ⟨index, target⟩ →
    (s.waitFor isizeMax ⟨index, caller⟩ ⟨index, target⟩ =
        some (.error (.refused "recursive lyrics call would deadlock"), s) ↔
      ¬Acyclic (withEdge graph.state.edges.HasEdge caller target))
  begun : ∀ caller target, s.has ⟨index, caller⟩ → s.has ⟨index, target⟩ →
    Acyclic (withEdge graph.state.edges.HasEdge caller target) →
      s.handles ⟨index, caller⟩ ≤ isizeMax → s.handles ⟨index, target⟩ ≤ isizeMax →
        ∃ graphs, s.waitFor isizeMax ⟨index, caller⟩ ⟨index, target⟩ =
          some (.ok .wait, ⟨graphs, s.waits ++ [.within index caller target]⟩)
  dropped : ∀ position wait, s.waits[position]? = some wait → wait.caller.graph = index →
    ∃ graphs, s.drop isizeMax position =
      some (.ok .dropped, ⟨graphs, s.waits.eraseIdx position⟩)

/-- A graph whose lock is not poisoned is orderly, nodes of two graphs do not wait for each other,
and a lock is poisoned only where all ids of nodes are used up. -/
structure Promised (isizeMax : Nat) (s : System) : Prop where
  inside : ∀ wait ∈ s.waits, wait.target.graph = wait.caller.graph ∧
    wait.caller.graph < s.graphs.length
  orderly : ∀ index graph, s.graphs[index]? = some graph → graph.poisoned = false →
    s.Orderly isizeMax index graph
  apart : ∀ caller target, s.has caller → s.has target → caller.graph ≠ target.graph →
    s.waitFor isizeMax caller target =
      some (.error (.refused "lyrics caller belongs to a different backend"), s)
  poisoned : ∀ graph ∈ s.graphs, graph.poisoned = true → graph.state.next = u64Max

/-! ## Runs -/

/-- A graph stands for the waits between its nodes while its lock is not poisoned. -/
structure Holds (waits : List CallWait) (index : Nat) (graph : CallGraph) : Prop where
  exhausted : graph.poisoned = true → graph.state.next = u64Max
  represents : graph.poisoned = false → ∃ alive : WaitGraph Nat,
    graph.state.edges.Represents alive ∧
      ∀ caller target, alive.count caller target = waits.count (.within index caller target)

/-- All graphs do, and each wait is between nodes of one of them. -/
structure Sound (s : System) : Prop where
  holds : ∀ index graph, s.graphs[index]? = some graph → Holds s.waits index graph
  inside : ∀ wait ∈ s.waits, wait.target.graph = wait.caller.graph ∧
    wait.caller.graph < s.graphs.length

variable {s next : System} {index isizeMax : Nat} {graph : CallGraph} {waits : List CallWait}

/-- One graph changes, and only waits between its nodes come or go. -/
theorem Sound.changed (sound : s.Sound) {after : CallGraph} (found : s.graphs[index]? = some graph)
    (holds : Holds waits index after)
    (others : ∀ wait : CallWait, wait.caller.graph ≠ index → waits.count wait = s.waits.count wait)
    (inside : ∀ wait ∈ waits, wait ∈ s.waits ∨
      wait.caller.graph = index ∧ wait.target.graph = index) :
    Sound ⟨s.graphs.set index after, waits⟩ where
  holds place other isOther := by
    have bound := (List.getElem?_eq_some_iff.mp found).1
    by_cases here : index = place
    · subst here
      rw [List.getElem?_set_self bound] at isOther
      cases isOther
      exact holds
    · rw [List.getElem?_set_ne here] at isOther
      have before := sound.holds place other isOther
      refine ⟨before.exhausted, fun healthy => ?_⟩
      obtain ⟨alive, represents, counted⟩ := before.represents healthy
      refine ⟨alive, represents, fun caller target => ?_⟩
      rw [counted, others _ (Ne.symm here)]
  inside wait member := by
    rw [List.length_set]
    rcases inside wait member with old | ⟨caller, target⟩
    · exact sound.inside wait old
    · exact ⟨target.trans caller.symm, caller ▸ (List.getElem?_eq_some_iff.mp found).1⟩

theorem Sound.keeps (sound : s.Sound) {after : CallGraph} (found : s.graphs[index]? = some graph)
    (holds : Holds s.waits index after) : Sound { s with graphs := s.graphs.set index after } :=
  sound.changed found holds (fun _ _ => rfl) fun _ member => .inl member

theorem exists_of_locked {α : Type} {critical : State → Except Fault (α × State)}
    {answer : Except Fault α} (entered : s.locked index critical = some (answer, next)) :
    ∃ graph, s.graphs[index]? = some graph ∧ answer = (graph.locked critical).1 ∧
      next = { s with graphs := s.graphs.set index (graph.locked critical).2 } := by
  obtain ⟨graph, found, same⟩ := Option.map_eq_some_iff.mp entered
  rw [Prod.mk.injEq] at same
  exact ⟨graph, found, same.1.symm, same.2.symm⟩

theorem sound_graph (sound : s.Sound) : Sound { s with graphs := s.graphs ++ [{}] } where
  holds place other isOther := by
    by_cases old : place < s.graphs.length
    · rw [List.getElem?_append_left old] at isOther
      exact sound.holds place other isOther
    · rw [List.getElem?_append_right (Nat.not_lt.mp old)] at isOther
      rw [List.mem_singleton.mp (List.mem_of_getElem? isOther)]
      refine ⟨nofun, fun _ => ⟨.empty, Edges.represents_empty, fun caller target => ?_⟩⟩
      refine (List.count_eq_zero.mpr fun member => old ?_).symm
      exact (sound.inside _ member).2
  inside wait member := by
    rw [List.length_append]
    exact ⟨(sound.inside wait member).1, Nat.lt_add_right _ (sound.inside wait member).2⟩

/-- A new node changes no edge, and a panic comes where its id is missing. -/
theorem Holds.node (holds : Holds waits index graph) :
    Holds waits index (graph.locked State.node).2 := by
  unfold CallGraph.locked State.node
  cases healthy : graph.poisoned with
  | true => simpa [healthy] using holds
  | false =>
    by_cases last : graph.state.next = u64Max
    · simp only [last, Bool.false_eq_true, if_false, if_true]
      exact ⟨fun _ => last, nofun⟩
    · simp only [last, Bool.false_eq_true, if_false]
      exact ⟨nofun, fun _ => holds.represents healthy⟩

section Counts

variable {alive : WaitGraph Nat} {caller target : Nat}
  (counted : ∀ source other, alive.count source other = waits.count (.within index source other))
include counted

theorem waits_of_mem (member : .within index caller target ∈ waits) :
    alive.Waits caller target := by
  unfold WaitGraph.Waits
  rw [counted]
  exact List.count_pos_iff.mpr member

theorem counted_begin (fits : ¬alive.Closes caller target) (source other : Nat) :
    (alive.begin caller target fits).count source other =
      (waits ++ [CallWait.within index caller target]).count (.within index source other) := by
  rw [List.count_append]
  by_cases same : source = caller ∧ other = target
  · obtain ⟨rfl, rfl⟩ := same
    rw [WaitGraph.begin_count_self, counted, List.count_singleton_self]
  · rw [WaitGraph.begin_count_other _ same, counted, eq_comm, Nat.add_eq_left, List.count_eq_zero]
    simpa using same

theorem counted_finish {rest : List CallWait}
    (taken : (.within index caller target :: rest).Perm waits) (source other : Nat) :
    (alive.finish caller target).count source other =
      rest.count (.within index source other) := by
  by_cases same : source = caller ∧ other = target
  · obtain ⟨rfl, rfl⟩ := same
    rw [WaitGraph.finish_count_self, counted, ← taken.count_eq, List.count_cons_self,
      Nat.add_sub_cancel]
  · rw [WaitGraph.finish_count_other same, counted, ← taken.count_eq, List.count_cons_of_ne]
    simpa [eq_comm] using same

end Counts

theorem count_le_handles (s : System) (caller target : CallNode) :
    s.waits.count ⟨caller, target⟩ ≤ s.handles caller := by
  have among : s.waits.count ⟨caller, target⟩ ≤ s.waits.countP (·.caller = caller) :=
    List.countP_mono_left fun wait _ same => by
      rw [eq_of_beq same]
      exact decide_eq_true rfl
  unfold handles
  omega

theorem waitFor_eq {caller target : Nat} (found : s.graphs[index]? = some graph)
    (hasCaller : s.has ⟨index, caller⟩) (hasTarget : s.has ⟨index, target⟩) :
    s.waitFor isizeMax ⟨index, caller⟩ ⟨index, target⟩ =
      match graph.locked (State.waitFor isizeMax caller target) with
      | (.error fault, after) => some (.error fault, ⟨s.graphs.set index after, s.waits⟩)
      | (.ok _, after) =>
        if isizeMax < s.handles ⟨index, caller⟩ ∨ isizeMax < s.handles ⟨index, target⟩ then none
        else some (.ok .wait,
          ⟨s.graphs.set index after, s.waits ++ [.within index caller target]⟩) := by
  unfold waitFor locked
  rw [hasCaller, hasTarget, if_neg (by decide), if_neg (not_not_intro rfl), found]
  dsimp only [Option.map_some]
  rcases graph.locked (State.waitFor isizeMax caller target) with ⟨_ | _, _⟩ <;> rfl

theorem sound_waitFor (sound : s.Sound) {caller target : CallNode} {answer : Except Fault Given}
    (called : s.waitFor isizeMax caller target = some (answer, next)) : next.Sound := by
  have entered := called
  unfold waitFor at called
  split at called
  · cases called
  next created =>
  split at called
  · cases called
    exact sound
  next same =>
  obtain ⟨hasCaller, hasTarget⟩ : s.has caller = true ∧ s.has target = true := by
    simpa using created
  obtain ⟨index, caller⟩ := caller
  obtain ⟨other, target⟩ := target
  obtain rfl : index = other := Classical.not_not.mp same
  obtain ⟨graph, found, _⟩ := (Option.any_eq_true _ _).mp hasCaller
  rw [waitFor_eq found hasCaller hasTarget] at entered
  have before := sound.holds index graph found
  cases healthy : graph.poisoned with
  | true =>
    rw [CallGraph.locked_poisoned healthy] at entered
    cases entered
    exact sound.keeps found before
  | false =>
    obtain ⟨alive, represents, counted⟩ := before.represents healthy
    rcases State.waitFor_spec isizeMax caller target represents with
      ⟨_, refused⟩ | ⟨fits, edges, begun, after⟩
    · rw [CallGraph.locked_of_refused healthy refused] at entered
      cases entered
      exact sound.keeps found before
    · rw [CallGraph.locked_of_ok healthy begun] at entered
      dsimp only at entered
      split at entered
      · cases entered
      next few =>
      cases entered
      have within : alive.count caller target ≤ isizeMax := by
        rw [counted]
        exact Nat.le_trans (s.count_le_handles _ _) (Nat.not_lt.mp fun many => few (.inl many))
      refine sound.changed found
        ⟨fun poisoned => absurd (healthy.symm.trans poisoned) Bool.false_ne_true,
          fun _ => ⟨_, after within, counted_begin counted fits⟩⟩
        (fun wait outside => ?_) fun wait member => ?_
      · rw [List.count_append, Nat.add_eq_left, List.count_eq_zero]
        intro member
        rw [List.mem_singleton.mp member] at outside
        exact outside rfl
      · refine (List.mem_append.mp member).imp_right fun new => ?_
        rw [List.mem_singleton.mp new]
        exact ⟨rfl, rfl⟩

theorem sound_drop (sound : s.Sound) {position : Nat} {answer : Except Fault Given}
    (called : s.drop isizeMax position = some (answer, next)) : next.Sound := by
  obtain ⟨wait, there, dropped⟩ := Option.bind_eq_some_iff.mp called
  obtain ⟨⟨first, middle⟩, entered, rest⟩ := Option.map_eq_some_iff.mp dropped
  obtain ⟨graph, found, isFirst, isMiddle⟩ := exists_of_locked entered
  have before := sound.holds _ _ found
  obtain ⟨bound, isWait⟩ := List.getElem?_eq_some_iff.mp there
  have taken := List.getElem_cons_eraseIdx_perm bound
  rw [isWait] at taken
  have inside := (sound.inside wait (List.mem_of_getElem? there)).1
  obtain ⟨⟨index, caller⟩, ⟨other, target⟩⟩ := wait
  obtain rfl : other = index := inside
  subst isMiddle
  cases rest
  refine sound.changed found ?_ (fun wait outside => ?_) fun wait member =>
    .inl (List.mem_of_mem_eraseIdx member)
  · cases healthy : graph.poisoned with
    | true =>
      rw [CallGraph.locked_poisoned healthy]
      exact ⟨before.exhausted, fun not => absurd (healthy.symm.trans not) (by decide)⟩
    | false =>
      obtain ⟨alive, represents, counted⟩ := before.represents healthy
      have waiting := waits_of_mem counted (List.mem_of_getElem? there)
      obtain ⟨edges, done, after⟩ := State.drop_spec isizeMax represents waiting
      rw [CallGraph.locked_of_ok healthy done]
      exact ⟨fun poisoned => absurd (healthy.symm.trans poisoned) Bool.false_ne_true,
        fun _ => ⟨_, after, counted_finish counted taken⟩⟩
  · rw [← taken.count_eq, List.count_cons_of_ne]
    rintro rfl
    exact outside rfl

theorem sound_of_reachable (reachable : (machine isizeMax).Reachable Machine.anyStep s) :
    s.Sound := by
  refine reachable.invariant ?_ fun state call after _ sound _ stepped => ?_
  · rintro _ rfl
    exact ⟨nofun, nofun⟩
  · obtain ⟨⟨answer, _⟩, called, rfl⟩ := Option.map_eq_some_iff.mp stepped
    cases call with
    | graph =>
      cases called
      exact sound_graph sound
    | node index =>
      obtain ⟨⟨_, _⟩, entered, same⟩ := Option.map_eq_some_iff.mp called
      obtain ⟨graph, found, _, rfl⟩ := exists_of_locked entered
      cases same
      exact sound.keeps found (sound.holds index graph found).node
    | waitFor caller target => exact sound_waitFor sound called
    | drop position => exact sound_drop sound called

theorem set_of_found (found : s.graphs[index]? = some graph) :
    s.graphs.set index graph = s.graphs := by
  obtain ⟨bound, rfl⟩ := List.getElem?_eq_some_iff.mp found
  exact List.set_getElem_self bound

theorem Sound.orderly (sound : s.Sound) (found : s.graphs[index]? = some graph)
    (healthy : graph.poisoned = false) : s.Orderly isizeMax index graph := by
  obtain ⟨alive, represents, counted⟩ := (sound.holds index graph found).represents healthy
  have closes : ∀ caller target, alive.Closes caller target ↔
      ¬Acyclic (withEdge graph.state.edges.HasEdge caller target) := by
    intro caller target
    rw [represents.hasEdge]
    rfl
  refine
    { counted := fun caller target => ?_
      full := represents.full
      acyclic := represents.hasEdge ▸ alive.acyclic
      refused := fun caller target hasCaller hasTarget => ?_
      begun := fun caller target hasCaller hasTarget fits callerFew targetFew => ?_
      dropped := fun position wait there isIndex => ?_ }
  · rw [represents.exact, counted]
  · rw [waitFor_eq found hasCaller hasTarget, ← closes]
    rcases State.waitFor_spec isizeMax caller target represents with
      ⟨isClosed, refused⟩ | ⟨fits, edges, begun, _⟩
    · rw [CallGraph.locked_of_refused healthy refused]
      dsimp only
      rw [set_of_found found]
      exact iff_of_true rfl isClosed
    · rw [CallGraph.locked_of_ok healthy begun]
      refine iff_of_false (fun same => ?_) fits
      dsimp only at same
      split at same <;> cases same
  · rcases State.waitFor_spec isizeMax caller target represents with
      ⟨isClosed, _⟩ | ⟨_, edges, begun, _⟩
    · exact absurd fits ((closes caller target).mp isClosed)
    · rw [waitFor_eq found hasCaller hasTarget, CallGraph.locked_of_ok healthy begun]
      exact ⟨_, if_neg (not_or.mpr ⟨Nat.not_lt.mpr callerFew, Nat.not_lt.mpr targetFew⟩)⟩
  · have inside := (sound.inside wait (List.mem_of_getElem? there)).1
    obtain ⟨⟨place, caller⟩, ⟨other, target⟩⟩ := wait
    obtain rfl : place = index := isIndex
    obtain rfl : other = place := inside
    have waiting := waits_of_mem counted (List.mem_of_getElem? there)
    obtain ⟨edges, done, _⟩ := State.drop_spec isizeMax represents waiting
    unfold drop locked
    rw [there, Option.bind_some, found, Option.map_some, CallGraph.locked_of_ok healthy done]
    exact ⟨_, rfl⟩

/-- In every run of calls a graph whose lock is not poisoned counts its live waits, has no cycle,
refuses exactly the waits that would close one, and drops every wait. -/
theorem calls_promised (isizeMax : Nat) (s : System)
    (reachable : (machine isizeMax).Reachable Machine.anyStep s) : s.Promised isizeMax := by
  have sound := sound_of_reachable reachable
  refine ⟨sound.inside, fun index graph found healthy => sound.orderly found healthy,
    fun caller target hasCaller hasTarget differ => ?_, fun graph member poisoned => ?_⟩
  · unfold waitFor
    rw [hasCaller, hasTarget, if_neg (by decide), if_pos differ]
  · obtain ⟨index, found⟩ := List.mem_iff_getElem?.mp member
    exact (sound.holds index graph found).exhausted poisoned

/-- Two waits for one node, of which one is dropped, beside a third one. What would close a
cycle is refused meanwhile. -/
def shared : List Call :=
  [.graph, .node 0, .node 0, .node 0, .waitFor ⟨0, 0⟩ ⟨0, 0⟩, .waitFor ⟨0, 0⟩ ⟨0, 1⟩,
    .waitFor ⟨0, 0⟩ ⟨0, 1⟩, .waitFor ⟨0, 1⟩ ⟨0, 2⟩, .waitFor ⟨0, 2⟩ ⟨0, 0⟩, .drop 0]

theorem calls_promised_shared : ∃ s : System,
    s.waits = [.within 0 0 1, .within 0 1 2] ∧ s.Promised (2 ^ 63 - 1) := by
  have ran : ((machine (2 ^ 63 - 1)).run {} shared).any
      (·.waits = [.within 0 0 1, .within 0 1 2]) = true := by
    decide +kernel
  obtain ⟨s, reachable, waits⟩ := Machine.exists_reachable_of_run _ _ rfl ran
  exact ⟨s, of_decide_eq_true waits, calls_promised _ s reachable⟩

theorem path_nodes (state : State) (waits : List CallWait) (count : Nat)
    (left : state.next + count ≤ u64Max) :
    (machine isizeMax).Path Machine.anyStep ⟨[⟨state, false⟩], waits⟩
      ⟨[⟨{ state with next := state.next + count }, false⟩], waits⟩ := by
  induction count with
  | zero => exact .refl
  | succ count ih =>
    refine .step (.node 0) (ih (by omega)) trivial ?_
    have some : state.next + count ≠ u64Max := by omega
    have created : CallGraph.locked ⟨{ state with next := state.next + count }, false⟩ State.node =
        (.ok (state.next + count), ⟨{ state with next := state.next + (count + 1) }, false⟩) :=
      CallGraph.locked_of_ok rfl (if_neg some)
    simp only [machine, call, node, locked, List.getElem?_cons_zero, Option.map_some, created,
      List.set_cons_zero]

/-- Where no id is left, a drop does not get through the lock that the creation of a node has
poisoned. -/
theorem drop_panics : ¬∀ s : System, (machine (2 ^ 63 - 1)).Reachable Machine.anyStep s →
    ∀ position wait, s.waits[position]? = some wait →
      ∃ graphs, s.drop (2 ^ 63 - 1) position =
        some (.ok .dropped, ⟨graphs, s.waits.eraseIdx position⟩) := by
  intro dropped
  have ran : ((machine (2 ^ 63 - 1)).run {}
      [.graph, .node 0, .node 0, .waitFor ⟨0, 0⟩ ⟨0, 1⟩]).any (fun s =>
        s.waits = [.within 0 0 1] ∧ s.graphs.map (fun graph => (graph.state.next, graph.poisoned)) =
          [(2, false)]) = true := by
    decide +kernel
  obtain ⟨⟨graphs, waits⟩, reachable, checked⟩ := Machine.exists_reachable_of_run _ _ rfl ran
  obtain ⟨rfl, single⟩ := of_decide_eq_true checked
  obtain ⟨⟨state, poisoned⟩, rfl, same⟩ := List.map_eq_singleton_iff.mp single
  obtain ⟨begins, rfl⟩ := Prod.mk.inj same
  have left : state.next + (u64Max - 2) = u64Max := by
    rw [begins]
    rfl
  have exhausted := reachable.extend (path_nodes state _ (u64Max - 2) (Nat.le_of_eq left))
  rw [left] at exhausted
  have poisoned := exhausted.extend (.step (.node 0) .refl trivial rfl)
  obtain ⟨graphs, same⟩ := dropped _ poisoned 0 _ rfl
  cases same

end System

end LosslessMusic.Lyrics.Calls
