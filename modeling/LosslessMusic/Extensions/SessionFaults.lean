import LosslessMusic.Extensions.SessionBooks
import LosslessMusic.Transition.Parties

/-!
# Whose error a caller gets

A caller of `bootstrap` and `refresh` takes the result of the flight that it waits for. As long
as nobody waits for a flight whose leader's check has failed, no caller gets the error of
another one's check.
-/

namespace LosslessMusic.Extensions.SignedSession

open Transition

/-! ## The flights -/

/-- A bootstrap or a refresh fails by the check of its leader only, and that is known. -/
structure Told (shared : Shared) : Prop where
  faults : ∀ flight ∈ shared.flights, flight.kind ≠ .exchange → ∀ fault : Fault,
    flight.result = some (.error fault) → ∀ origin, fault.origin = some origin →
      origin = flight.leader ∧ flight.failed = true
  slots : ∀ (kind : Kind) (id : Nat), shared.slot kind = some id →
    ∃ flight : Flight, shared.flights[id]? = some flight ∧ flight.kind = kind

/-- What the others leave to a party: its flights, and that it waits. -/
structure Leaving (party : Nat) (before after : Shared) : Prop where
  flights : ∀ (id : Nat) (flight : Flight), before.flights[id]? = some flight →
    ∃ later : Flight, after.flights[id]? = some later ∧ later.kind = flight.kind
  own : ∀ (id : Nat) (flight : Flight), flight.leader = party →
    (after.flights[id]? = some flight ↔ before.flights[id]? = some flight)
  waiting : ∀ id, (id, party) ∈ before.waiting → (id, party) ∈ after.waiting

theorem Leaving.refl (party : Nat) (shared : Shared) : Leaving party shared shared where
  flights _ flight here := ⟨flight, here, rfl⟩
  own _ _ _ := Iff.rfl
  waiting _ member := member

theorem Leaving.trans {party : Nat} {first second third : Shared}
    (before : Leaving party first second) (after : Leaving party second third) :
    Leaving party first third where
  flights id flight here := by
    obtain ⟨middle, there, kind⟩ := before.flights id flight here
    obtain ⟨last, found, same⟩ := after.flights id middle there
    exact ⟨last, found, same.trans kind⟩
  own id flight mine := (after.own id flight mine).trans (before.own id flight mine)
  waiting id member := after.waiting id (before.waiting id member)

/-- Nobody goes on, unless by its own check, that heeds the flight it waits for and whose leader's
check has failed. -/
def undisturbed (heeds : Nat → Kind → Bool) (party : Nat) (shared : Shared) (answer : Answer) :
    Bool :=
  answer.closed || answer.check.isSome || shared.waiting.all fun (id, waiter) =>
    waiter ≠ party || (shared.flights[id]?).all fun flight =>
      !heeds party flight.kind || !flight.failed

/-- A flight of the party has no result yet. -/
def Open (party : Nat) (kind : Kind) (id : Nat) (shared : Shared) : Prop :=
  ∃ failed, shared.flights[id]? = some ⟨kind, party, none, failed⟩

/-- The party goes on with its flights. -/
def Holds (party : Nat) (before after : Shared) : Prop :=
  ∀ kind id, Open party kind id before → Open party kind id after

/-- An error of a check is of the party's own, and all its flights know that. -/
def Mine (party : Nat) (fault : Fault) (shared : Shared) : Prop :=
  ∀ origin, fault.origin = some origin → origin = party ∧
    ∀ flight ∈ shared.flights, flight.leader = party → flight.result = none → flight.failed = true

variable {fault : Fault}

theorem Mine.of_none {party : Nat} {shared : Shared} (nobody : fault.origin = none) :
    Mine party fault shared := by
  intro origin same
  rw [nobody] at same
  cases same

theorem Holds.trans {party : Nat} {first second third : Shared} (before : Holds party first second)
    (after : Holds party second third) : Holds party first third :=
  fun kind id unfinished => after kind id (before kind id unfinished)

theorem Leaving.holds {party : Nat} {before after : Shared} (leaving : Leaving party before after) :
    Holds party before after := by
  rintro kind id ⟨failed, here⟩
  exact ⟨failed, (leaving.own id _ rfl).mpr here⟩

theorem Mine.later {party : Nat} {before after : Shared}
    (mine : Mine party fault before) (leaving : Leaving party before after) :
    Mine party fault after := by
  intro origin same
  refine ⟨(mine origin same).1, fun flight member leads => ?_⟩
  obtain ⟨id, here⟩ := List.mem_iff_getElem?.mp member
  exact (mine origin same).2 flight
    (List.mem_of_getElem? ((leaving.own id flight leads).mp here)) leads

/-! ## Actions -/

/-- An action that leaves the flights as they are. -/
structure Quiet (before after : Shared) : Prop where
  slot : after.slot = before.slot
  flights : after.flights = before.flights
  waiting : after.waiting = before.waiting

theorem Quiet.leaving {before after : Shared} (quiet : Quiet before after) (party : Nat) :
    Leaving party before after where
  flights _ flight here := ⟨flight, quiet.flights.symm ▸ here, rfl⟩
  own _ _ _ := by rw [quiet.flights]
  waiting _ member := quiet.waiting.symm ▸ member

theorem Quiet.told {before after : Shared} (quiet : Quiet before after) (told : Told before) :
    Told after where
  faults := by
    rw [quiet.flights]
    exact told.faults
  slots := by
    rw [quiet.flights, quiet.slot]
    exact told.slots

theorem Flight.check_same (party : Nat) (failed : Bool) (flight : Flight) :
    (flight.check party failed).kind = flight.kind ∧
      (flight.check party failed).leader = flight.leader ∧
      (flight.check party failed).result = flight.result := by
  unfold Flight.check
  split <;> exact ⟨rfl, rfl, rfl⟩

variable {flight : Flight}

theorem Flight.check_other {party : Nat} {failed : Bool}
    (other : flight.leader ≠ party) : flight.check party failed = flight :=
  if_neg fun both => other both.1

variable {result : Except Fault Unit}

theorem Flight.check_landed {party : Nat} {failed : Bool} (landed : flight.result = some result) :
    flight.check party failed = flight := by
  refine if_neg fun both => ?_
  rw [landed] at both
  cases both.2

variable {other : Nat}

section Check

variable (party : Nat) (failed : Bool) (shared : Shared)

/-- The flights after a check. -/
def Shared.looked : Shared :=
  { shared with flights := shared.flights.map (Flight.check party failed) }

theorem Told.looked {shared : Shared} (told : Told shared) : Told (shared.looked party failed) where
  faults flight member known fault ended origin same := by
    obtain ⟨old, there, rfl⟩ := List.mem_map.mp member
    rw [(old.check_same party failed).2.2] at ended
    rw [Flight.check_landed ended] at known ⊢
    exact told.faults old there known fault ended origin same
  slots kind id taken := by
    obtain ⟨flight, here, known⟩ := told.slots kind id taken
    refine ⟨flight.check party failed, ?_, (flight.check_same party failed).1.trans known⟩
    rw [Shared.looked, List.getElem?_map, here]
    rfl

theorem holds_looked : Holds party shared (shared.looked party failed) := by
  rintro kind id ⟨before, here⟩
  refine ⟨failed, ?_⟩
  rw [Shared.looked, List.getElem?_map, here]
  simp [Flight.check]

theorem leaving_looked (different : other ≠ party) :
    Leaving other shared (shared.looked party failed) where
  flights id flight here := by
    refine ⟨flight.check party failed, ?_, (flight.check_same party failed).1⟩
    rw [Shared.looked, List.getElem?_map, here]
    rfl
  own id flight mine := by
    rw [Shared.looked, List.getElem?_map, Option.map_eq_some_iff]
    constructor
    · rintro ⟨old, there, rfl⟩
      rw [(old.check_same party failed).2.1] at mine
      rw [Flight.check_other (mine ▸ different)]
      exact there
    · intro here
      exact ⟨flight, here, Flight.check_other (mine ▸ different)⟩
  waiting _ member := member

end Check

/-- What a check does to the flights. -/
structure Checked {α : Type} (party : Nat) (before : Shared) (checked : Shared × Except Fault α) :
    Prop where
  told : Told before → Told checked.1
  holds : Holds party before checked.1
  others : ∀ other, other ≠ party → Leaving other before checked.1
  mine : ∀ fault, checked.2 = .error fault → Mine party fault checked.1

namespace Checked

variable {party : Nat} {α γ : Type} {before after middle : Shared}

theorem of_quiet {result : Except Fault α} (quiet : Quiet before after)
    (nobody : ∀ fault, result = .error fault → fault.origin = none) :
    Checked party before (after, result) where
  told := quiet.told
  holds := (quiet.leaving party).holds
  others _ _ := quiet.leaving _
  mine fault same := .of_none (nobody fault same)

theorem trans {checked : Except Fault γ} {next : Shared × Except Fault α}
    (first : Checked party before (middle, checked)) (second : Checked party middle next) :
    Checked party before next where
  told told := second.told (first.told told)
  holds := first.holds.trans second.holds
  others other different := (first.others other different).trans (second.others other different)
  mine := second.mine

theorem failed (checked : Checked party before (after, (.error fault : Except Fault γ))) :
    Checked party before (after, (.error fault : Except Fault α)) where
  told := checked.told
  holds := checked.holds
  others := checked.others
  mine other same := checked.mine other (congrArg Except.error (Except.error.inj same))

theorem of_mine (mine : Mine party fault before) :
    Checked party before (before, (.error fault : Except Fault α)) where
  told := id
  holds _ _ := id
  others _ _ := .refl _ _
  mine other same := by
    cases same
    exact mine

end Checked

theorem Quiet.refl (shared : Shared) : Quiet shared shared := ⟨rfl, rfl, rfl⟩

theorem Quiet.contents (shared : Shared) (contents : Contents) :
    Quiet shared (shared.withContents contents) := ⟨rfl, rfl, rfl⟩

theorem Quiet.store (shared : Shared) (contents : Contents) (stored : Stored) :
    Quiet shared (shared.store contents stored) := ⟨rfl, rfl, rfl⟩

theorem Shared.checked (party : Nat) (shared : Shared) (answer : Answer) :
    Checked party shared (shared.check party answer) := by
  unfold Shared.check
  split
  · refine ⟨id, fun _ _ => id, fun other _ => .refl _ _, fun fault same => ?_⟩
    cases same
    exact .of_none rfl
  · split
    · refine ⟨fun told => told.looked party true, holds_looked party true shared,
        fun other different => leaving_looked party true shared different, ?_⟩
      intro fault same origin known
      cases same
      cases known
      refine ⟨rfl, fun flight member leads unfinished => ?_⟩
      obtain ⟨old, there, rfl⟩ := List.mem_map.mp member
      rw [(old.check_same party true).2.1] at leads
      rw [(old.check_same party true).2.2] at unfinished
      simp [Flight.check, leads, unfinished]
    · exact ⟨fun told => told.looked party false, holds_looked party false shared,
        fun other different => leaving_looked party false shared different, nofun⟩

/-! ## Threads -/

/-- A thread that a party safely runs, in this regard. -/
abbrev Telling {α : Type} (heeds : Nat → Kind → Bool) (party : Nat) (post : α → Shared → Prop)
    (failed : Fault → Shared → Prop) (thread : Act α) (state : Shared) : Prop :=
  Thread.Safe Told Leaving (fun party shared answer => undisturbed heeds party shared answer = true) party post failed
    thread state

/-- A thread that goes on with the flights of its party and gets no foreign error. -/
def Fair {α : Type} (heeds : Nat → Kind → Bool) (party : Nat) (thread : Act α) : Prop :=
  ∀ state, Telling heeds party (fun _ after => Holds party state after)
    (fun fault after => Holds party state after ∧ Mine party fault after) thread state

variable {heeds : Nat → Kind → Bool} {party : Nat} {α γ : Type}

variable {now start : Shared}

namespace Fair

theorem done (value : α) : Fair heeds party (.done value) := fun _ _ _ => id

theorem fails (nobody : fault.origin = none) :
    Fair heeds party (.fails fault : Act α) := fun _ => ⟨fun _ _ => id, .of_none nobody⟩

theorem ofExcept {ε : Type} (result : Except ε α) {fault : ε → Fault}
    (nobody : ∀ error, (fault error).origin = none) :
    Fair heeds party (Thread.ofExcept (result.mapError fault) : Act α) := by
  cases result with
  | ok value => exact done value
  | error error => exact fails (nobody error)

theorem after {thread : Act α} (fair : Fair heeds party thread) (held : Holds party start now) :
    Telling heeds party (fun _ after => Holds party start after)
      (fun fault after => Holds party start after ∧ Mine party fault after) thread now :=
  (fair now).mono (fun _ _ => held.trans) fun _ _ known => ⟨held.trans known.1, known.2⟩

theorem bind {first : Act γ} {next : γ → Act α} (fair : Fair heeds party first)
    (continues : ∀ value, Fair heeds party (next value)) : Fair heeds party (first >>= next) := by
  intro state
  exact Thread.Safe.bind (fair state) fun value _ held => (continues value).after held

theorem outcome {thread : Act α} (fair : Fair heeds party thread) (state : Shared) :
    Telling heeds party (fun result after => Holds party state after ∧
        ∀ fault, result = .error fault → Mine party fault after)
      (fun fault after => Holds party state after ∧ Mine party fault after)
      (thread.outcome : Act (Except Fault α)) state := by
  refine (Thread.Safe.outcome (fair state)).mono (fun result after known => ?_) fun _ _ => id
  cases result with
  | ok value => exact ⟨known, nofun⟩
  | error fault =>
    refine ⟨known.1, fun other same => ?_⟩
    cases same
    exact known.2

theorem checked {action : Shared → Answer → Shared × Except Fault α}
    (checks : ∀ shared answer, Checked party shared (action shared answer)) :
    Fair heeds party (Thread.locked action) := by
  intro state
  refine Thread.safe_locked fun now relied told answer _ => ?_
  have known := checks now answer
  have held := relied.holds.trans known.holds
  refine ⟨known.told told, known.others, ?_⟩
  split
  · exact held
  next fault ended => exact ⟨held, known.mine fault ended⟩

end Fair

/-! ## Calls of every operation -/

theorem fair_checks : Fair heeds party (checks party) :=
  .checked fun shared answer => shared.checked party answer

theorem fair_request : Fair heeds party (request party) := by
  refine .checked fun shared answer => ?_
  have checked := shared.checked party answer
  split
  next same =>
    rw [same] at checked
    exact checked.failed
  next same =>
    rw [same] at checked
    refine checked.trans (.of_quiet (.refl _) fun fault ended => ?_)
    cases response : answer.response with
    | ok => rw [response] at ended; cases ended
    | error => rw [response] at ended; cases ended; rfl

theorem fair_underLock {action : Contents → Answer → Contents × Except Fault α}
    (nobody : ∀ contents answer fault, (action contents answer).2 = .error fault →
      fault.origin = none) : Fair heeds party (underLock action) :=
  .checked fun shared answer => .of_quiet ⟨rfl, rfl, rfl⟩ (nobody shared.contents answer)

/-- Whoever waits for a flight knows that, and that it heeds the flight. -/
structure Awaits (heeds : Nat → Kind → Bool) (party flight : Nat) (shared : Shared) : Prop where
  waiting : (flight, party) ∈ shared.waiting
  here : ∃ known : Flight, shared.flights[flight]? = some known ∧ known.kind ≠ .exchange ∧
    heeds party known.kind = true

theorem Awaits.later {flight : Nat} {before after : Shared}
    (awaits : Awaits heeds party flight before) (leaving : Leaving party before after) :
    Awaits heeds party flight after where
  waiting := leaving.waiting flight awaits.waiting
  here := by
    obtain ⟨known, here, kind⟩ := awaits.here
    obtain ⟨later, there, same⟩ := leaving.flights flight known here
    exact ⟨later, there, same ▸ kind⟩

variable {answer : Answer}

theorem of_undisturbed {flight : Nat} {known : Flight} {shared : Shared}
    (allowed : undisturbed heeds party shared answer = true) (open_ : answer.closed = false)
    (passes : answer.check = none) (waiting : (flight, party) ∈ shared.waiting)
    (here : shared.flights[flight]? = some known) (heeded : heeds party known.kind = true) :
    known.failed = false := by
  rw [undisturbed, open_, passes] at allowed
  simpa [here, heeded] using List.all_eq_true.mp allowed _ waiting

theorem Shared.check_passes {shared checked : Shared}
    (passed : shared.check party answer = (checked, .ok ())) :
    answer.closed = false ∧ answer.check = none := by
  unfold Shared.check at passed
  split at passed
  · cases passed
  next open_ =>
    split at passed
    · cases passed
    next passes => exact ⟨Bool.eq_false_iff.mpr open_, passes⟩

theorem leaving_awake (shared : Shared) (flight : Nat) (different : other ≠ party) :
    Leaving other shared { shared with waiting := shared.waiting.erase (flight, party) } :=
  { Leaving.refl other shared with
    waiting := fun _ member => by
      refine (List.mem_erase_of_ne fun same => different ?_).mpr member
      exact congrArg Prod.snd same }

/-- Whoever waits for a flight whose leader's check has not failed gets no foreign error. -/
theorem telling_wait (flight : Nat) (state : Shared) :
    Telling heeds party (fun _ after => Holds party state after)
      (fun fault after => Holds party state after ∧
        (Awaits heeds party flight state → Mine party fault after)) (wait party flight) state := by
  intro now relied told answer allowed after result acted
  have others (other : Nat) (different : other ≠ party) := leaving_awake now flight different
  dsimp only at acted
  split at acted
  next checked fault same =>
    cases acted
    have known := Shared.checked party
      { now with waiting := now.waiting.erase (flight, party) } answer
    rw [same] at known
    exact ⟨known.told ⟨told.faults, told.slots⟩, fun other different =>
      (others other different).trans (known.others other different),
      relied.holds.trans known.holds, fun _ => known.mine fault rfl⟩
  next checked passed =>
    have passes := Shared.check_passes passed
    obtain ⟨known, found, same⟩ := Option.map_eq_some_iff.mp acted
    cases same
    refine ⟨⟨told.faults, told.slots⟩, others, ?_⟩
    cases result with
    | ok value => exact relied.holds
    | error fault =>
      refine ⟨relied.holds, fun awaits origin same => ?_⟩
      have awaiting := awaits.later relied
      obtain ⟨landed, here, kind, heeded⟩ := awaiting.here
      rw [here] at found
      have failed := told.faults landed (List.mem_of_getElem? here) kind fault found origin same
      have free := of_undisturbed allowed passes.1 passes.2 awaiting.waiting here heeded
      rw [failed.2] at free
      cases free

/-! ## Flights -/

/-- A party that leads a flight knows it, and had not begun it before. -/
structure Opens (party : Nat) (kind : Kind) (id : Nat) (start now : Shared) : Prop where
  held : Holds party start now
  first : ∀ other position, Open party other position start → position ≠ id
  here : Open party kind id now

variable {id : Nat}

theorem Opens.later {kind : Kind} {later : Shared}
    (opens : Opens party kind id start now) (held : Holds party now later) :
    Opens party kind id start later :=
  ⟨opens.held.trans held, opens.first, held kind id opens.here⟩

theorem Opens.since {kind : Kind} {later : Shared}
    (opens : Opens party kind id now later) (held : Holds party start now) :
    Opens party kind id start later :=
  ⟨held.trans opens.held, fun other position unfinished =>
    opens.first other position (held other position unfinished), opens.here⟩

section Take

variable (shared : Shared) (kind : Kind) (began : Nat) (stage : Stage)

theorem told_take {shared : Shared} (told : Told shared) :
    Told (shared.take kind party began stage) where
  faults flight member := by
    rcases List.mem_append.mp member with old | new
    · exact told.faults flight old
    · obtain rfl := List.mem_singleton.mp new
      exact fun _ _ ended => nomatch ended
  slots other id taken := by
    by_cases same : other = kind
    · subst same
      simp only [Shared.take, Function.update_self] at taken
      cases taken
      exact ⟨_, List.getElem?_concat_length, rfl⟩
    · simp only [Shared.take, Function.update_of_ne same] at taken
      obtain ⟨flight, here, known⟩ := told.slots other id taken
      exact ⟨flight, (List.getElem?_append_left (List.getElem?_eq_some_iff.mp here).1).trans here,
        known⟩

theorem leaving_take (different : other ≠ party) :
    Leaving other shared (shared.take kind party began stage) where
  flights id flight here := ⟨flight, List.getElem?_append_left
    (List.getElem?_eq_some_iff.mp here).1 ▸ here, rfl⟩
  own id flight mine := by
    constructor
    · intro here
      rcases getElem?_append_some here with ⟨_, rfl⟩ | ⟨_, old⟩
      · exact absurd mine.symm different
      · exact old
    · intro here
      exact (List.getElem?_append_left (List.getElem?_eq_some_iff.mp here).1).trans here
  waiting _ member := member

theorem opens_take (held : Holds party start shared) :
    Opens party kind shared.flights.length start (shared.take kind party began stage) where
  held other id unfinished := by
    obtain ⟨failed, here⟩ := held other id unfinished
    exact ⟨failed, (List.getElem?_append_left (List.getElem?_eq_some_iff.mp here).1).trans here⟩
  first other id unfinished := by
    obtain ⟨failed, here⟩ := held other id unfinished
    exact Nat.ne_of_lt (List.getElem?_eq_some_iff.mp here).1
  here := ⟨false, List.getElem?_concat_length⟩

end Take

theorem leaving_modify {position : Nat} (id : Nat)
    (result : Except Fault Unit) (here : now.flights[position]? = some flight) :
    ∃ later : Flight, (now.finish id result).flights[position]? = some later ∧
      later.kind = flight.kind := by
  by_cases equal : position = id
  · subst equal
    exact ⟨_, getElem?_modify_self here, rfl⟩
  · exact ⟨flight, (getElem?_modify_ne equal).trans here, rfl⟩

/-- A flight lands: with an error of the party's own check, if at all. -/
theorem told_finish {kind : Kind} (told : Told now) (opens : Opens party kind id start now)
    (mine : kind ≠ .exchange → ∀ fault, result = .error fault → Mine party fault now) :
    Told (now.finish id result) where
  faults flight member known fault ended origin same := by
    obtain ⟨position, there⟩ := List.mem_iff_getElem?.mp member
    obtain ⟨failed, here⟩ := opens.here
    by_cases equal : position = id
    · subst equal
      rw [Shared.finish, getElem?_modify_self here] at there
      cases there
      have own := mine known fault (Option.some.inj ended) origin same
      exact ⟨own.1, own.2 ⟨kind, party, none, failed⟩ (List.mem_of_getElem? here) rfl rfl⟩
    · rw [Shared.finish, getElem?_modify_ne equal] at there
      exact told.faults flight (List.mem_of_getElem? there) known fault ended origin same
  slots other position taken := by
    obtain ⟨flight, there, known⟩ := told.slots other position taken
    obtain ⟨later, found, same⟩ := leaving_modify id result there
    exact ⟨later, found, same.trans known⟩

theorem leaving_finish {kind : Kind} (result : Except Fault Unit)
    (opens : Opens party kind id start now) (different : other ≠ party) :
    Leaving other now (now.finish id result) where
  flights _ _ here := leaving_modify id result here
  own position flight mine := by
    by_cases equal : position = id
    · subst equal
      obtain ⟨failed, here⟩ := opens.here
      rw [Shared.finish, getElem?_modify_self here, here]
      constructor
      · intro same
        cases same
        exact absurd mine.symm different
      · intro same
        cases same
        exact absurd mine.symm different
    · rw [Shared.finish, getElem?_modify_ne equal]
  waiting _ member := member

theorem Opens.finish {kind : Kind} (result : Except Fault Unit)
    (opens : Opens party kind id start now) : Holds party start (now.finish id result) := by
  intro other position unfinished
  obtain ⟨again, there⟩ := opens.held other position unfinished
  exact ⟨again, (getElem?_modify_ne (opens.first other position unfinished)).trans there⟩

theorem Mine.finish (mine : Mine party fault now) : Mine party fault (now.finish id result):= by
  intro origin same
  refine ⟨(mine origin same).1, fun flight member leads unfinished => ?_⟩
  obtain ⟨position, there⟩ := List.mem_iff_getElem?.mp member
  obtain ⟨old, here, ⟨_, rfl⟩ | ⟨_, rfl⟩⟩ := getElem?_modify_some there
  · cases unfinished
  · exact (mine origin same).2 flight (List.mem_of_getElem? here) leads unfinished

/-! ## Bootstrap and refresh -/

variable {libraries : Libraries}

theorem settleBootstrap_checked {client : Client} {base : Record} {generation began : Nat}
    {outcome : Except Fault Bootstrap} {shared : Shared}
    (mine : ∀ fault, outcome = .error fault → Mine party fault shared) :
    Checked party shared
      (settleBootstrap libraries party client base generation began outcome shared answer) := by
  unfold settleBootstrap
  split
  next fault => exact .of_mine (mine fault rfl)
  · have checked := shared.checked party answer
    split
    next same =>
      rw [same] at checked
      exact checked.failed
    next same =>
      rw [same] at checked
      refine checked.trans ?_
      split
      · exact .of_quiet ⟨rfl, rfl, rfl⟩ fun fault same => by cases same; rfl
      · split
        next failed =>
          exact .of_quiet (.contents _ _) fun fault same => by
            cases same
            exact load_nobody failed
        · dsimp only
          split
          · exact .of_quiet (.contents _ _) nofun
          · split
            · split
              · exact .of_quiet (.contents _ _) fun fault same => by cases same; rfl
              · exact .of_quiet (.store _ _ _) nofun
            · split
              · exact .of_quiet (.contents _ _) fun fault same => by cases same; rfl
              · exact .of_quiet (.contents _ _) nofun

theorem settleRefresh_checked {client : Client} {base : Record} {generation began : Nat}
    {outcome : Except Fault Response} {shared : Shared}
    (mine : ∀ fault, outcome = .error fault → Mine party fault shared) :
    Checked party shared
      (settleRefresh libraries party client base generation began outcome shared answer) := by
  unfold settleRefresh
  split
  next fault => exact .of_mine (mine fault rfl)
  · split
    · exact .of_mine (.of_none rfl)
    · split
      · exact .of_mine (.of_none rfl)
      · have checked := shared.checked party answer
        split
        next same =>
          rw [same] at checked
          exact checked.failed
        next same =>
          rw [same] at checked
          refine checked.trans ?_
          split
          · exact .of_mine (.of_none rfl)
          · split
            next failed =>
              exact .of_quiet (.contents _ _) fun fault same => by
                cases same
                exact load_nobody failed
            · split
              · split
                · exact .of_quiet (.contents _ _) fun fault same => by cases same; rfl
                · exact .of_quiet (.store _ _ _) nofun
              · exact .of_quiet (.contents _ _) nofun

end LosslessMusic.Extensions.SignedSession
