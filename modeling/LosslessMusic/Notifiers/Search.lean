import LosslessMusic.Notifiers.AsyncValue
import LosslessMusic.Text
import LosslessMusic.Transition.Machine
import Mathlib.Tactic.Common

/-!
# What the search screen shows

`search_provider.dart`: searches and the resolution of links write one published state.
Their backend calls complete in any order; a completion is one step.
-/

namespace LosslessMusic.Notifiers

open Transition (Machine)

structure SearchResults (τ α β : Type) where
  tracks : List τ := []
  artists : List α := []
  albums : List β := []
  deriving DecidableEq, Repr

/-- What `handleUrl` resolves a link to, by its `type`. -/
inductive Resolved (τ : Type)
  | track (track : τ)
  | collection (tracks : List τ)
  | other
  deriving DecidableEq, Repr

/-- The tracks of a link. -/
def Resolved.tracks {τ : Type} : Resolved τ → List τ
  | .track found => [found]
  | .collection found => found
  | .other => []

/-- What a call was made for. -/
inductive Request
  | search (q : String)
  | resolveFromUrl (url : String)
  deriving DecidableEq, Repr

/-- What a call awaits; a search knows its number. -/
inductive Phase (τ : Type)
  | tracks (mySeq : Nat)
  | entities (mySeq : Nat) (tracks : List τ)
  | url
  | done
  deriving DecidableEq, Repr

/-- A call with the answers it has had. -/
structure Call (ε τ α β : Type) where
  request : Request
  phase : Phase τ
  found : Option (Except ε (List τ)) := none
  folded : Option (List α × List β) := none
  resolved : Option (Except ε (Option (Resolved τ))) := none

/-- The notifier with all calls there have been. The last field records who published what. -/
structure SearchNotifier (ε τ α β : Type) where
  seq : Nat := 0
  state : AsyncValue ε (SearchResults τ α β) := .data {}
  calls : List (Call ε τ α β) := []
  published : List (Nat × AsyncValue ε (SearchResults τ α β)) := []

/-- A call is made, or what a call awaits is answered; the entities may fail. -/
inductive SearchEvent (ε τ α β : Type)
  | search (q : String)
  | resolveFromUrl (url : String)
  | tracks (call : Nat) (answer : Except ε (List τ))
  | entities (call : Nat) (answer : Option (List α × List β))
  | url (call : Nat) (answer : Except ε (Option (Resolved τ)))

namespace SearchNotifier

variable {ε τ α β : Type} (keeps : Bool) (s : SearchNotifier ε τ α β)

/-- `state = shown`, by the call at this position. -/
def publish (position : Nat) (shown : AsyncValue ε (SearchResults τ α β)) :
    SearchNotifier ε τ α β :=
  { s with state := shown, published := s.published ++ [(position, shown)] }

/-- The record of a call is replaced. -/
def put (position : Nat) (call : Call ε τ α β) : SearchNotifier ε τ α β :=
  { s with calls := s.calls.set position call }

/-- A call is made. -/
def make (request : Request) (phase : Phase τ) : SearchNotifier ε τ α β :=
  { s with calls := s.calls ++ [{ request, phase }] }

/-- `search` up to its first wait. -/
def search (q : String) : SearchNotifier ε τ α β :=
  let s := { s with seq := s.seq + 1 }
  if Text.trimDart q = "" then (s.make (.search q) .done).publish s.calls.length (.data {})
  else
    (s.make (.search q) (.tracks s.seq)).publish s.calls.length (.loading (s.state.kept keeps))

/-- `resolveFromUrl` up to its first wait. -/
def resolveFromUrl (url : String) : SearchNotifier ε τ α β :=
  (s.make (.resolveFromUrl url) .url).publish s.calls.length (.loading (s.state.kept keeps))

/-- The tracks of a search are there. -/
def tracks (position : Nat) (call : Call ε τ α β) (answer : Except ε (List τ)) :
    Option (SearchNotifier ε τ α β) :=
  match call.phase with
  | .tracks mySeq =>
    let call := { call with found := some answer }
    if mySeq ≠ s.seq then some (s.put position { call with phase := .done })
    else
      match answer with
      | .error error =>
        some ((s.put position { call with phase := .done }).publish position
          (.error error (s.state.kept keeps)))
      | .ok tracks =>
        some ((s.put position { call with phase := .entities mySeq tracks }).publish position
          (.data { tracks }))
  | _ => none

/-- The artists and albums of a search are there, or have failed. -/
def entities (position : Nat) (call : Call ε τ α β) (answer : Option (List α × List β)) :
    Option (SearchNotifier ε τ α β) :=
  match call.phase with
  | .entities mySeq tracks =>
    let done := s.put position { call with folded := answer, phase := .done }
    match answer with
    | none => some done
    | some (artists, albums) =>
      some (if mySeq = s.seq && s.state.hasValue then
          done.publish position (.data { tracks, artists, albums })
        else done)
  | _ => none

/-- A link is resolved. -/
def url (position : Nat) (call : Call ε τ α β) (answer : Except ε (Option (Resolved τ))) :
    Option (SearchNotifier ε τ α β) :=
  match call.phase with
  | .url =>
    let done := s.put position { call with resolved := some answer, phase := .done }
    match answer with
    | .error error => some (done.publish position (.error error (s.state.kept keeps)))
    | .ok none => some (done.publish position (.data {}))
    | .ok (some result) => some (done.publish position (.data { tracks := result.tracks }))
  | _ => none

/-- One event. -/
def step : SearchEvent ε τ α β → Option (SearchNotifier ε τ α β)
  | .search q => some (s.search keeps q)
  | .resolveFromUrl url => some (s.resolveFromUrl keeps url)
  | .tracks position answer => (s.calls[position]?).bind (s.tracks keeps position · answer)
  | .entities position answer => (s.calls[position]?).bind (s.entities position · answer)
  | .url position answer => (s.calls[position]?).bind (s.url keeps position · answer)

/-- The notifier as a machine; `build` shows nothing. -/
def machine : Machine (SearchNotifier ε τ α β) (SearchEvent ε τ α β) where
  Start s := s = {}
  step s := s.step keeps

end SearchNotifier

/-! ## The last call -/

/-- What a call shows by its own answers. -/
def Call.shows {ε τ α β : Type} (call : Call ε τ α β) : AsyncValue ε (SearchResults τ α β) :=
  match call.request with
  | .search q =>
    if Text.trimDart q = "" then .data {}
    else
      match call.found, call.folded with
      | none, _ => .loading none
      | some (.error error), _ => .error error none
      | some (.ok tracks), none => .data { tracks }
      | some (.ok tracks), some (artists, albums) => .data { tracks, artists, albums }
  | .resolveFromUrl _ =>
    match call.resolved with
    | none => .loading none
    | some (.error error) => .error error none
    | some (.ok none) => .data {}
    | some (.ok (some result)) => .data { tracks := result.tracks }

/-- The number of a search that awaits something. -/
def Phase.mySeq? {τ : Type} : Phase τ → Option Nat
  | .tracks mySeq | .entities mySeq _ => some mySeq
  | .url | .done => none

/-- What a call has been answered while it awaits the rest. -/
def Call.Fits {ε τ α β : Type} (call : Call ε τ α β) : Prop :=
  match call.phase with
  | .tracks _ =>
    (∃ q, call.request = .search q ∧ Text.trimDart q ≠ "") ∧ call.folded = none
  | .entities _ tracks =>
    (∃ q, call.request = .search q ∧ Text.trimDart q ≠ "") ∧ call.found = some (.ok tracks) ∧
      call.folded = none
  | .url => ∃ url, call.request = .resolveFromUrl url
  | .done => True

namespace SearchNotifier

variable {ε τ α β : Type} (keeps : Bool) (s : SearchNotifier ε τ α β)

/-- What is promised: no call publishes after a later one has, and at rest the last call
is shown. -/
structure ShowsLast (s : SearchNotifier ε τ α β) : Prop where
  ordered : (s.published.map Prod.fst).Pairwise (· ≤ ·)
  last : (∀ call ∈ s.calls, call.phase = .done) →
    ∀ call, s.calls.getLast? = some call → s.state.bare = call.shows

/-- No later call has been made. -/
def isLast (position : Nat) : Bool :=
  position + 1 = s.calls.length

/-- The condition: what is answered belongs to the last call, or to a search that a later
search has replaced, or are entities that fail or that come while there is no value. -/
def spares : SearchEvent ε τ α β → Bool
  | .search _ | .resolveFromUrl _ => true
  | .url position _ => s.isLast position
  | .tracks position _ | .entities position none =>
    s.isLast position || (s.calls[position]?).any fun call =>
      match call.phase with
      | .tracks mySeq => mySeq ≠ s.seq
      | _ => true
  | .entities position (some _) =>
    s.isLast position || !s.state.hasValue || (s.calls[position]?).any fun call =>
      match call.phase with
      | .entities mySeq _ => mySeq ≠ s.seq
      | _ => true

/-! ## Who publishes -/

section

variable {keeps : Bool} {s : SearchNotifier ε τ α β}

/-- Calls have published in their order. -/
def Ordered (s : SearchNotifier ε τ α β) : Prop :=
  (s.published.map Prod.fst).Pairwise (· ≤ ·)

/-- What is recorded belongs to calls, and every call has published something. -/
structure Recorded (s : SearchNotifier ε τ α β) : Prop where
  inside : ∀ position ∈ s.published.map Prod.fst, position < s.calls.length
  announced : ∀ position < s.calls.length, position ∈ s.published.map Prod.fst

theorem recorded_put (recorded : s.Recorded) (position : Nat) (call : Call ε τ α β) :
    (s.put position call).Recorded := by
  constructor
  · intro other member
    rw [put, List.length_set]
    exact recorded.inside other member
  · intro other bound
    rw [put, List.length_set] at bound
    exact recorded.announced other bound

theorem map_fst_publish (position : Nat) (shown : AsyncValue ε (SearchResults τ α β)) :
    (s.publish position shown).published.map Prod.fst = s.published.map Prod.fst ++ [position] := by
  rw [publish, List.map_append, List.map_singleton]

variable {position : Nat}

theorem recorded_publish (recorded : s.Recorded)
    (bound : position < s.calls.length) (shown : AsyncValue ε (SearchResults τ α β)) :
    (s.publish position shown).Recorded := by
  constructor
  · intro other member
    rw [map_fst_publish, List.mem_append] at member
    rcases member with old | new
    · exact recorded.inside other old
    · rw [List.mem_singleton.mp new]
      exact bound
  · intro other before
    rw [map_fst_publish]
    exact List.mem_append_left _ (recorded.announced other before)

theorem recorded_make (recorded : s.Recorded) (request : Request) (phase : Phase τ)
    (shown : AsyncValue ε (SearchResults τ α β)) :
    ((s.make request phase).publish s.calls.length shown).Recorded := by
  have length : (s.make request phase).calls.length = s.calls.length + 1 := List.length_append
  constructor
  · intro position member
    rw [map_fst_publish, List.mem_append] at member
    show position < (s.make request phase).calls.length
    rw [length]
    rcases member with old | new
    · exact Nat.lt_succ_of_lt (recorded.inside position old)
    · rw [List.mem_singleton.mp new]
      exact Nat.lt_succ_self _
  · intro position bound
    change position < (s.make request phase).calls.length at bound
    rw [length] at bound
    rw [map_fst_publish, List.mem_append]
    rcases Nat.lt_succ_iff_lt_or_eq.mp bound with old | new
    · exact .inl (recorded.announced position old)
    · exact .inr (List.mem_singleton.mpr new)

theorem ordered_publish_iff (recorded : s.Recorded)
    (bound : position < s.calls.length) (shown : AsyncValue ε (SearchResults τ α β)) :
    (s.publish position shown).Ordered ↔ s.Ordered ∧ s.isLast position = true := by
  unfold Ordered isLast
  rw [map_fst_publish, List.pairwise_append, decide_eq_true_iff]
  constructor
  · rintro ⟨ordered, -, below⟩
    have last : s.calls.length - 1 ∈ s.published.map Prod.fst := recorded.announced _ (by omega)
    have most := below _ last position (List.mem_singleton_self _)
    exact ⟨ordered, by omega⟩
  · rintro ⟨ordered, last⟩
    refine ⟨ordered, List.pairwise_singleton _ _, fun other member position new => ?_⟩
    rw [List.mem_singleton.mp new]
    have before := recorded.inside other member
    omega

theorem ordered_make_iff (recorded : s.Recorded) (request : Request) (phase : Phase τ)
    (shown : AsyncValue ε (SearchResults τ α β)) :
    ((s.make request phase).publish s.calls.length shown).Ordered ↔ s.Ordered := by
  unfold Ordered
  rw [map_fst_publish, List.pairwise_append]
  constructor
  · exact And.left
  · intro ordered
    refine ⟨ordered, List.pairwise_singleton _ _, fun other member position new => ?_⟩
    rw [List.mem_singleton.mp new]
    exact (recorded.inside other member).le

variable {call : Call ε τ α β}

theorem ordered_put_publish_iff (recorded : s.Recorded)
    (found : s.calls[position]? = some call) (later : Call ε τ α β)
    (shown : AsyncValue ε (SearchResults τ α β)) :
    ((s.put position later).publish position shown).Ordered ↔
      s.Ordered ∧ s.isLast position = true := by
  have bound : position < s.calls.length := (List.getElem?_eq_some_iff.mp found).1
  have length : (s.put position later).calls.length = s.calls.length := List.length_set
  rw [ordered_publish_iff (recorded_put recorded position later) (length ▸ bound)]
  unfold isLast
  rw [length]
  rfl

theorem recorded_put_publish (recorded : s.Recorded)
    (found : s.calls[position]? = some call) (later : Call ε τ α β)
    (shown : AsyncValue ε (SearchResults τ α β)) :
    ((s.put position later).publish position shown).Recorded := by
  refine recorded_publish (recorded_put recorded position later) ?_ shown
  rw [put, List.length_set]
  exact (List.getElem?_eq_some_iff.mp found).1

/-! ## What the last call shows -/

/-- The last call is shown, and no search has come after it. -/
structure Current (s : SearchNotifier ε τ α β) : Prop where
  fits : ∀ call ∈ s.calls, call.Fits
  shown : ∀ call, s.calls.getLast? = some call → s.state.bare = call.shows
  newest : ∀ call, s.calls.getLast? = some call → ∀ mySeq, call.phase.mySeq? = some mySeq →
    mySeq = s.seq

theorem getLast?_put (found : s.calls[position]? = some call) (later : Call ε τ α β) :
    (s.put position later).calls.getLast? =
      if s.isLast position then some later else s.calls.getLast? := by
  have bound : position < s.calls.length := (List.getElem?_eq_some_iff.mp found).1
  unfold put isLast
  rw [List.getLast?_eq_getElem?, List.getLast?_eq_getElem?, List.length_set, List.getElem?_set]
  by_cases last : position + 1 = s.calls.length
  · have here : position = s.calls.length - 1 := by omega
    simp only [last, decide_true, if_true, ← here, bound]
  · have elsewhere : position ≠ s.calls.length - 1 := by omega
    simp only [last, elsewhere, decide_false, if_false, Bool.false_eq_true]

theorem getLast?_of_isLast
    (found : s.calls[position]? = some call) (last : s.isLast position = true) :
    s.calls.getLast? = some call := by
  unfold isLast at last
  rw [decide_eq_true_iff] at last
  rw [List.getLast?_eq_getElem?, ← last, Nat.add_sub_cancel]
  exact found

variable {shown : AsyncValue ε (SearchResults τ α β)}

theorem current_make (current : s.Current) (seq : Nat) {request : Request} {phase : Phase τ}
    (fits : ({ request, phase } : Call ε τ α β).Fits)
    (shows : shown.bare = ({ request, phase } : Call ε τ α β).shows)
    (newest : ∀ mySeq, phase.mySeq? = some mySeq → mySeq = seq) :
    ((({ s with seq } : SearchNotifier ε τ α β).make request phase).publish
      s.calls.length shown).Current := by
  have last (call : Call ε τ α β)
      (isLast : (s.calls ++ [({ request, phase } : Call ε τ α β)]).getLast? = some call) :
      call = { request, phase } := by
    rw [List.getLast?_concat] at isLast
    exact (Option.some.inj isLast).symm
  refine ⟨fun call member => ?_, fun call isLast => ?_, fun call isLast mySeq awaits => ?_⟩
  · rcases List.mem_append.mp member with old | new
    · exact current.fits call old
    · rw [List.mem_singleton.mp new]
      exact fits
  · rw [last call isLast]
    exact shows
  · rw [last call isLast] at awaits
    exact newest mySeq awaits

variable {later : Call ε τ α β}

theorem current_put_publish (current : s.Current) (found : s.calls[position]? = some call)
    (last : s.isLast position = true) (fits : later.Fits) (shows : shown.bare = later.shows)
    (newest : ∀ mySeq, later.phase.mySeq? = some mySeq → mySeq = s.seq) :
    ((s.put position later).publish position shown).Current := by
  have same (one : Call ε τ α β)
      (isLast : (s.put position later).calls.getLast? = some one) : one = later := by
    rw [getLast?_put found, if_pos last] at isLast
    exact (Option.some.inj isLast).symm
  refine ⟨fun one member => ?_, fun one isLast => ?_, fun one isLast mySeq awaits => ?_⟩
  · rcases List.mem_or_eq_of_mem_set member with old | rfl
    · exact current.fits one old
    · exact fits
  · rw [same one isLast]
    exact shows
  · rw [same one isLast] at awaits
    exact newest mySeq awaits

theorem current_put (current : s.Current)
    (found : s.calls[position]? = some call) (done : later.phase = .done)
    (shows : s.isLast position = true → s.state.bare = later.shows) :
    (s.put position later).Current := by
  refine ⟨fun one member => ?_, fun one isLast => ?_, fun one isLast mySeq awaits => ?_⟩
  · rcases List.mem_or_eq_of_mem_set member with old | rfl
    · exact current.fits one old
    · unfold Call.Fits
      rw [done]
      trivial
  · rw [getLast?_put found] at isLast
    split at isLast
    next last =>
      rw [← Option.some.inj isLast]
      exact shows last
    · exact current.shown one isLast
  · rw [getLast?_put found] at isLast
    split at isLast
    · rw [← Option.some.inj isLast, done] at awaits
      cases awaits
    · exact current.newest one isLast mySeq awaits

/-! ## What a step can do -/

/-- A call is made, ends quietly, or goes on and shows something. -/
inductive Stepped (s : SearchNotifier ε τ α β) (event : SearchEvent ε τ α β) :
    SearchNotifier ε τ α β → Prop
  | makes (seq : Nat) {request : Request} {phase : Phase τ}
      {shown : AsyncValue ε (SearchResults τ α β)} : s.spares event = true →
      ({ request, phase } : Call ε τ α β).Fits →
      shown.bare = ({ request, phase } : Call ε τ α β).shows →
      (∀ mySeq, phase.mySeq? = some mySeq → mySeq = seq) →
      Stepped s event ((({ s with seq } : SearchNotifier ε τ α β).make request phase).publish
        s.calls.length shown)
  | ends {position : Nat} {call later : Call ε τ α β} : s.calls[position]? = some call →
      s.spares event = true → later.phase = .done →
      (s.Current → s.isLast position = true → s.state.bare = later.shows) →
      Stepped s event (s.put position later)
  | goesOn {position : Nat} {call later : Call ε τ α β}
      {shown : AsyncValue ε (SearchResults τ α β)} : s.calls[position]? = some call →
      s.spares event = s.isLast position → (call.Fits → later.Fits ∧ shown.bare = later.shows) →
      (∀ mySeq, later.phase.mySeq? = some mySeq → mySeq = s.seq) →
      Stepped s event ((s.put position later).publish position shown)

variable {next : SearchNotifier ε τ α β}

theorem stepped_of_tracks (found : s.calls[position]? = some call) {answer : Except ε (List τ)}
    (answered : s.tracks keeps position call answer = some next) :
    s.Stepped (.tracks position answer) next := by
  unfold tracks at answered
  split at answered
  next mySeq isPhase =>
    dsimp only at answered
    split at answered
    next replaced =>
      cases answered
      refine .ends found (by simp [spares, found, isPhase, replaced]) rfl ?_
      refine fun current last => absurd ?_ replaced
      exact current.newest call (getLast?_of_isLast found last) mySeq (by rw [isPhase]; rfl)
    next newest =>
      rw [not_not] at newest
      have meets : s.spares (.tracks position answer) = s.isLast position := by
        simp [spares, found, isPhase, newest]
      split at answered
      next =>
        cases answered
        refine .goesOn found meets (fun fits => ?_) nofun
        rw [Call.Fits, isPhase] at fits
        obtain ⟨⟨q, searched, nonempty⟩, -⟩ := fits
        exact ⟨trivial, by simp [Call.shows, AsyncValue.bare, searched, nonempty]⟩
      next tracks =>
        cases answered
        refine .goesOn found meets (fun fits => ?_) ?_
        · rw [Call.Fits, isPhase] at fits
          obtain ⟨⟨q, searched, nonempty⟩, unfolded⟩ := fits
          refine ⟨⟨⟨q, searched, nonempty⟩, rfl, unfolded⟩, ?_⟩
          simp [Call.shows, AsyncValue.bare, searched, nonempty, unfolded]
        · rintro _ ⟨⟩
          exact newest
  · cases answered

theorem stepped_of_entities
    (found : s.calls[position]? = some call) {answer : Option (List α × List β)}
    (answered : s.entities position call answer = some next) :
    s.Stepped (.entities position answer) next := by
  unfold entities at answered
  split at answered
  next mySeq tracks isPhase =>
    have searches (fits : call.Fits) : ∃ q, call.request = .search q ∧ Text.trimDart q ≠ "" ∧
        call.found = some (.ok tracks) ∧ call.folded = none := by
      rw [Call.Fits, isPhase] at fits
      obtain ⟨⟨q, searched, nonempty⟩, isFound, unfolded⟩ := fits
      exact ⟨q, searched, nonempty, isFound, unfolded⟩
    -- the tracks are what the call has shown
    have shown (current : s.Current) (last : s.isLast position = true) :
        s.state.bare = .data { tracks } := by
      obtain ⟨q, searched, nonempty, isFound, unfolded⟩ :=
        searches (current.fits call (List.mem_of_getElem? found))
      rw [current.shown call (getLast?_of_isLast found last)]
      simp [Call.shows, searched, nonempty, isFound, unfolded]
    dsimp only at answered
    split at answered
    next =>
      cases answered
      refine .ends found (by simp [spares, found, isPhase]) rfl fun current last => ?_
      obtain ⟨q, searched, nonempty, isFound, -⟩ :=
        searches (current.fits call (List.mem_of_getElem? found))
      rw [shown current last]
      simp [Call.shows, searched, nonempty, isFound]
    next artists albums =>
      cases answered
      split
      next publishes =>
        rw [Bool.and_eq_true, decide_eq_true_iff] at publishes
        refine .goesOn found (by simp [spares, found, isPhase, publishes]) (fun fits => ?_) nofun
        obtain ⟨q, searched, nonempty, isFound, -⟩ := searches fits
        exact ⟨trivial, by simp [Call.shows, AsyncValue.bare, searched, nonempty, isFound]⟩
      next quiet =>
        refine .ends found ?_ rfl fun current last => absurd ?_ quiet
        · by_cases same : mySeq = s.seq
          · simp [same] at quiet
            simp [spares, quiet]
          · simp [spares, found, isPhase, same]
        · have newest := current.newest call (getLast?_of_isLast found last) mySeq
            (by rw [isPhase]; rfl)
          have valued : s.state.hasValue = true := by
            have isData := shown current last
            cases isState : s.state with
            | data value => rfl
            | loading previous => rw [isState] at isData; cases isData
            | error cause previous => rw [isState] at isData; cases isData
          simp [newest, valued]
  · cases answered

theorem stepped_of_url
    (found : s.calls[position]? = some call) {answer : Except ε (Option (Resolved τ))}
    (answered : s.url keeps position call answer = some next) :
    s.Stepped (.url position answer) next := by
  unfold url at answered
  split at answered
  next isPhase =>
    dsimp only at answered
    split at answered <;> cases answered
    all_goals
      refine .goesOn found rfl (fun fits => ?_) nofun
      rw [Call.Fits, isPhase] at fits
      obtain ⟨url, resolves⟩ := fits
      exact ⟨trivial, by simp [Call.shows, AsyncValue.bare, resolves]⟩
  · cases answered

variable {event : SearchEvent ε τ α β}

theorem stepped_of_step (stepped : s.step keeps event = some next) : s.Stepped event next:= by
  cases event with
  | search q =>
    cases stepped
    unfold search
    split
    next empty =>
      refine .makes (s.seq + 1) rfl trivial ?_ nofun
      simp [Call.shows, AsyncValue.bare, empty]
    next nonempty =>
      refine .makes (s.seq + 1) rfl ⟨⟨q, rfl, nonempty⟩, rfl⟩ ?_ ?_
      · simp [Call.shows, AsyncValue.bare, nonempty]
      · rintro _ ⟨⟩
        rfl
  | resolveFromUrl url =>
    cases stepped
    refine .makes s.seq rfl ⟨url, rfl⟩ ?_ nofun
    simp [Call.shows, AsyncValue.bare]
  | tracks position answer =>
    obtain ⟨call, found, answered⟩ := Option.bind_eq_some_iff.mp stepped
    exact stepped_of_tracks found answered
  | entities position answer =>
    obtain ⟨call, found, answered⟩ := Option.bind_eq_some_iff.mp stepped
    exact stepped_of_entities found answered
  | url position answer =>
    obtain ⟨call, found, answered⟩ := Option.bind_eq_some_iff.mp stepped
    exact stepped_of_url found answered

theorem recorded_step (recorded : s.Recorded)
    (stepped : s.Stepped event next) : next.Recorded := by
  cases stepped with
  | makes seq =>
    have counted : ({ s with seq } : SearchNotifier ε τ α β).Recorded :=
      ⟨recorded.inside, recorded.announced⟩
    exact recorded_make counted _ _ _
  | ends => exact recorded_put recorded _ _
  | goesOn found => exact recorded_put_publish recorded found _ _

theorem ordered_step_iff (recorded : s.Recorded) (stepped : s.Stepped event next) :
    next.Ordered ↔ s.Ordered ∧ s.spares event = true := by
  cases stepped with
  | makes seq meets =>
    have counted : ({ s with seq } : SearchNotifier ε τ α β).Recorded :=
      ⟨recorded.inside, recorded.announced⟩
    exact (ordered_make_iff counted _ _ _).trans (and_iff_left meets).symm
  | ends _ meets => exact (and_iff_left meets).symm
  | goesOn found meets =>
    rw [meets]
    exact ordered_put_publish_iff recorded found _ _

theorem current_step (current : s.Current) (stepped : s.Stepped event next)
    (meets : s.spares event = true) : next.Current := by
  cases stepped with
  | makes seq _ fits shows newest => exact current_make current seq fits shows newest
  | ends found _ done shows => exact current_put current found done (shows current)
  | goesOn found last goes newest =>
    obtain ⟨fits, shows⟩ := goes (current.fits _ (List.mem_of_getElem? found))
    exact current_put_publish current found (last.symm.trans meets) fits shows newest

theorem recorded_new : ({} : SearchNotifier ε τ α β).Recorded where
  inside := nofun
  announced := nofun

theorem current_new : ({} : SearchNotifier ε τ α β).Current where
  fits := nofun
  shown := nofun
  newest := nofun

end

/-- A run shows the last call exactly when all its steps meet the condition. -/
theorem showsLast_iff (keeps : Bool) (events : List (SearchEvent ε τ α β))
    (s : SearchNotifier ε τ α β) (ran : (machine keeps).run {} events = some s) :
    s.ShowsLast ↔ (machine keeps).runMeets spares {} events = true := by
  have ordered_iff : s.Ordered ↔ (machine keeps).runMeets spares {} events = true := by
    rw [(machine keeps).fine_iff_runMeets Recorded Ordered
      (fun _ _ _ recorded stepped => recorded_step recorded (stepped_of_step stepped))
      (fun _ _ _ recorded stepped => ordered_step_iff recorded (stepped_of_step stepped)) recorded_new ran]
    exact and_iff_right List.Pairwise.nil
  constructor
  · exact fun shows => ordered_iff.mp shows.ordered
  · intro meets
    have current : s.Current := (Machine.path_of_run ran meets).preserves current_new
        fun _ _ _ current allowed stepped => current_step current (stepped_of_step stepped) allowed
    exact ⟨ordered_iff.mpr meets, fun _ => current.shown⟩

/-- A search that is answered before and after a link that was opened after it. -/
def linkOpened : List (SearchEvent String String String String) :=
  [.search "song", .resolveFromUrl "link", .url 1 (.ok (some (.track "linked"))),
    .tracks 0 (.ok ["found"])]

/-- The link is opened when the search has been answered. -/
def linkOpenedLater : List (SearchEvent String String String String) :=
  [.search "song", .tracks 0 (.ok ["found"]), .entities 0 none, .resolveFromUrl "link",
    .url 1 (.ok (some (.track "linked")))]

theorem showsLast_iff_later : ∃ s, (machine false).run {} linkOpenedLater = some s ∧ s.ShowsLast :=
  ⟨_, rfl, (showsLast_iff false linkOpenedLater _ rfl).mpr (by decide)⟩

theorem link_covered : ¬∀ (keeps : Bool) (events : List (SearchEvent String String String String))
      (s : SearchNotifier String String String String),
      (machine keeps).run {} events = some s → s.ShowsLast := by
  intro shows
  have ordered := (shows false linkOpened _ rfl).ordered
  exact absurd ordered (by decide)

end SearchNotifier
end LosslessMusic.Notifiers
