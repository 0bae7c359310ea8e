import Mathlib.Data.List.Basic

/-!
# Candidates tried in order

A list of candidates is tried from its head until one of them settles the
matter. Trying a candidate may leave an event behind; a failure that does not
settle the matter is remembered, and the next candidate is tried.

The rules below say what the events of the whole sequence inherit from the
single trials: where they come from, in which order, and which of them can be
followed by another.
-/

namespace LosslessMusic.Transition

variable {Candidate Event Failure Result : Type}

/-- What trying one candidate came to. -/
inductive Trial (Event Failure Result : Type)
  /-- The candidate was left out. -/
  | passed
  /-- The candidate failed, and the next one is tried. -/
  | failed (event : Option Event) (failure : Failure)
  /-- The candidate settled the matter. -/
  | settled (event : Option Event) (result : Result)

namespace Trial

/-- The event a trial leaves behind. -/
def event : Trial Event Failure Result → Option Event
  | passed => none
  | failed event _ => event
  | settled event _ => event

/-- Whether a trial ends the sequence. -/
def isSettled : Trial Event Failure Result → Bool
  | settled _ _ => true
  | _ => false

end Trial

/-- What trying a list of candidates came to. -/
structure Tried (Event Failure Result : Type) where
  events : List Event
  last : Option Failure
  result : Option Result

/-- Try the candidates in order; `index` counts the trials. -/
def tryEach (attempt : Nat → Candidate → Trial Event Failure Result) :
    Nat → Option Failure → List Candidate → Tried Event Failure Result
  | _, last, [] => { events := [], last := last, result := none }
  | index, last, candidate :: rest =>
    match attempt index candidate with
    | .passed => tryEach attempt (index + 1) last rest
    | .failed event failure =>
      let tried := tryEach attempt (index + 1) (some failure) rest
      { tried with events := event.toList ++ tried.events }
    | .settled event result =>
      { events := event.toList, last := last, result := some result }

section Rules

variable (attempt : Nat → Candidate → Trial Event Failure Result)

/-- Every event of the sequence is the event of one trial. -/
theorem event_of_mem_tryEach (index : Nat) (last : Option Failure) (candidates : List Candidate)
    (event : Event) (member : event ∈ (tryEach attempt index last candidates).events) :
    ∃ turn, ∃ candidate ∈ candidates, (attempt turn candidate).event = some event := by
  induction candidates generalizing index last with
  | nil => simp [tryEach] at member
  | cons candidate rest ih =>
    rw [tryEach] at member
    have later : ∀ next remembered, event ∈ (tryEach attempt next remembered rest).events →
          ∃ turn, ∃ tried ∈ candidate :: rest, (attempt turn tried).event = some event := by
      intro next remembered found
      obtain ⟨turn, tried, belongs, left⟩ := ih next remembered found
      exact ⟨turn, tried, List.mem_cons_of_mem candidate belongs, left⟩
    cases trial : attempt index candidate with
    | passed =>
      rw [trial] at member
      exact later (index + 1) last member
    | failed own failure =>
      rw [trial] at member
      rcases List.mem_append.mp member with here | found
      · refine ⟨index, candidate, List.mem_cons_self, ?_⟩
        rw [trial]
        exact Option.mem_toList.mp here
      · exact later (index + 1) (some failure) found
    | settled own result =>
      rw [trial] at member
      refine ⟨index, candidate, List.mem_cons_self, ?_⟩
      rw [trial]
      exact Option.mem_toList.mp member

/-- If every event names its candidate, the events come in the order of the
candidates, each candidate leaving at most one. -/
theorem tryEach_sublist {Key : Type} (keyOf : Event → Key) (nameOf : Candidate → Key) (named :
      ∀ index candidate event,
        (attempt index candidate).event = some event → keyOf event = nameOf candidate)
    (index : Nat) (last : Option Failure) (candidates : List Candidate) :
    ((tryEach attempt index last candidates).events.map keyOf).Sublist (candidates.map nameOf) := by
  induction candidates generalizing index last with
  | nil => simp [tryEach]
  | cons candidate rest ih =>
    rw [tryEach, List.map_cons]
    have own : ∀ event : Option Event, (attempt index candidate).event = event →
          (event.toList.map keyOf).Sublist [nameOf candidate] := by
      intro event left
      cases event with
      | none => exact List.nil_sublist _
      | some event =>
        rw [Option.toList_some, List.map_singleton, named index candidate event left]
    cases trial : attempt index candidate with
    | passed => exact (ih (index + 1) last).cons (nameOf candidate)
    | failed event failure =>
      rw [trial] at own
      simp only [List.map_append]
      exact (own event rfl).append (ih (index + 1) (some failure))
    | settled event result =>
      rw [trial] at own
      exact (own event rfl).trans (List.singleton_sublist.mpr List.mem_cons_self)

/-- If the event of a trial that does not settle the matter always goes on, then
whatever is followed by another event goes on, and so does every event of a
sequence that ends unsettled. -/
theorem tryEach_goesOn (GoesOn : Event → Prop) (candidates : List Candidate) (goesOn :
      ∀ index, ∀ candidate ∈ candidates, ∀ event failure,
        attempt index candidate = .failed (some event) failure → GoesOn event)
    (index : Nat) (last : Option Failure) :
    (tryEach attempt index last candidates).events.Pairwise (fun earlier _ => GoesOn earlier) ∧
      ((tryEach attempt index last candidates).result = none →
        ∀ event ∈ (tryEach attempt index last candidates).events, GoesOn event) := by
  induction candidates generalizing index last with
  | nil => simp [tryEach]
  | cons candidate rest ih =>
    have restGoesOn := ih fun turn tried belongs =>
      goesOn turn tried (List.mem_cons_of_mem candidate belongs)
    rw [tryEach]
    cases trial : attempt index candidate with
    | passed => exact restGoesOn (index + 1) last
    | settled event result =>
      refine ⟨?_, fun none => by cases none⟩
      cases event with
      | none => exact List.Pairwise.nil
      | some event => exact List.pairwise_singleton _ event
    | failed event failure =>
      obtain ⟨ordered, unsettled⟩ := restGoesOn (index + 1) (some failure)
      have own : ∀ left ∈ event.toList, GoesOn left := by
        intro left member
        have isEvent : event = some left := Option.mem_toList.mp member
        rw [isEvent] at trial
        exact goesOn index candidate List.mem_cons_self left failure trial
      constructor
      · refine List.pairwise_append.mpr ⟨?_, ordered, ?_⟩
        · cases event with
          | none => exact List.Pairwise.nil
          | some event => exact List.pairwise_singleton _ event
        · intro left member _ _
          exact own left member
      · intro noResult left member
        rcases List.mem_append.mp member with here | later
        · exact own left here
        · exact unsettled noResult left later

theorem unsettled_of_tryEach (index : Nat) (last : Option Failure) (candidates : List Candidate)
    (unsettled : (tryEach attempt index last candidates).result = none) :
    ∀ candidate ∈ candidates, ∃ turn, (attempt turn candidate).isSettled = false := by
  induction candidates generalizing index last with
  | nil => intro candidate member; cases member
  | cons first rest ih =>
    intro candidate member
    rw [tryEach] at unsettled
    cases trial : attempt index first with
    | passed =>
      rw [trial] at unsettled
      rcases List.mem_cons.mp member with here | later
      · exact ⟨index, by rw [here, trial]; rfl⟩
      · exact ih (index + 1) last unsettled candidate later
    | failed event failure =>
      rw [trial] at unsettled
      rcases List.mem_cons.mp member with here | later
      · exact ⟨index, by rw [here, trial]; rfl⟩
      · exact ih (index + 1) (some failure) unsettled candidate later
    | settled event result =>
      rw [trial] at unsettled
      cases unsettled

end Rules

end LosslessMusic.Transition
