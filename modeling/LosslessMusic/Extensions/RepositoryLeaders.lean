import LosslessMusic.Extensions.RepositoryKnowledge

/-!
# The leaders of the repository

Each epoch has one leader at most, which the table leads to while the epoch is the one of
now. A flight without a result has its leader.
-/

namespace LosslessMusic.Extensions.Repository

open Transition

variable {libraries : Libraries} {system next : System}

/-! ## Stages -/

/-- Whether a leader has not saved anything yet. -/
def Leading.before : Leading → Bool
  | .requesting | .answered _ | .saving _ _ => true
  | .publishing _ | .removing _ => false

/-- What the flight of a leader is at its stage. -/
def Leading.Of (flight : Flight) : Leading → Prop
  | .requesting | .answered _ | .saving _ _ => flight.saved = none ∧ flight.result = none
  | .publishing result =>
    flight.result = none ∧ ∀ cache, flight.saved = some cache → result = .ok cache.registry
  | .removing result =>
    flight.result = some result ∧ ∀ cache, flight.saved = some cache → result = .ok cache.registry

/-- How the flights, the table and the leaders of a repository belong together. -/
structure Led (generation epoch : Nat) (table : Nat → Option Nat) (cache : Option Cache)
    (flights : List Flight) (callers : List Caller) : Prop where
  staged : ∀ (leader : Nat) (fetch : Fetch) (stage : Leading),
    callers[leader]? = some (.leading fetch stage) →
    ∃ flight, flights[fetch.flight]? = some flight ∧ flight.epoch = fetch.epoch ∧ stage.Of flight
  listed : ∀ (leader : Nat) (fetch : Fetch) (stage : Leading),
    callers[leader]? = some (.leading fetch stage) → fetch.epoch = epoch →
    table generation = some fetch.flight
  unique : ∀ (leader other : Nat) (fetch again : Fetch) (stage point : Leading),
    callers[leader]? = some (.leading fetch stage) →
    callers[other]? = some (.leading again point) → fetch.epoch = again.epoch → leader = other
  current : ∀ (leader : Nat) (fetch : Fetch) (stage : Leading),
    callers[leader]? = some (.leading fetch stage) → stage.before = true →
    fetch.epoch = epoch → cache = fetch.cached
  led : ∀ (id : Nat) (flight : Flight), flights[id]? = some flight → flight.result = none →
    ∃ (leader : Nat) (fetch : Fetch) (stage : Leading),
      callers[leader]? = some (.leading fetch stage) ∧ fetch.flight = id
  saved : ∀ flight ∈ flights, ∀ cache result, flight.saved = some cache →
    flight.result = some result → result = .ok cache.registry

namespace Led

variable {generation epoch : Nat} {table : Nat → Option Nat} {cache kept : Option Cache}
  {flights : List Flight} {callers : List Caller} {position : Nat} {old new : Caller}

/-- A caller goes on, and a leader to a stage of the same flight. -/
theorem caller (led : Led generation epoch table cache flights callers)
    (here : callers[position]? = some old)
    (leads : ∀ fetch stage, new = .leading fetch stage → ∃ first, old = .leading fetch first ∧
      (stage.before = true → first.before = true) ∧ ∀ flight, first.Of flight → stage.Of flight)
    (stays : ∀ fetch stage, old = .leading fetch stage → ∃ last, new = .leading fetch last) :
    Led generation epoch table cache flights (callers.set position new) where
  staged leader fetch stage there := by
    rcases getElem?_set_some there with ⟨rfl, same⟩ | ⟨_, there⟩
    · obtain ⟨first, rfl, _, of⟩ := leads fetch stage same.symm
      obtain ⟨flight, found, dated, before⟩ := led.staged _ fetch first here
      exact ⟨flight, found, dated, of flight before⟩
    · exact led.staged leader fetch stage there
  listed leader fetch stage there := by
    rcases getElem?_set_some there with ⟨rfl, same⟩ | ⟨_, there⟩
    · obtain ⟨first, rfl, _, _⟩ := leads fetch stage same.symm
      exact led.listed _ fetch first here
    · exact led.listed leader fetch stage there
  unique leader other fetch again stage point first second := by
    have known {leader : Nat} {fetch : Fetch} {stage : Leading}
        (there : (callers.set position new)[leader]? = some (.leading fetch stage)) :
        ∃ before, callers[leader]? = some (.leading fetch before) := by
      rcases getElem?_set_some there with ⟨rfl, same⟩ | ⟨_, there⟩
      · obtain ⟨before, rfl, _, _⟩ := leads fetch stage same.symm
        exact ⟨before, here⟩
      · exact ⟨stage, there⟩
    obtain ⟨before, there⟩ := known first
    obtain ⟨behind, beyond⟩ := known second
    exact led.unique leader other fetch again before behind there beyond
  current leader fetch stage there before := by
    rcases getElem?_set_some there with ⟨rfl, same⟩ | ⟨_, there⟩
    · obtain ⟨first, rfl, early, _⟩ := leads fetch stage same.symm
      exact led.current _ fetch first here (early before)
    · exact led.current leader fetch stage there before
  led id flight found unpublished := by
    obtain ⟨leader, fetch, stage, there, same⟩ := led.led id flight found unpublished
    by_cases moved : leader = position
    · subst moved
      rw [there] at here
      obtain ⟨last, rfl⟩ := stays fetch stage (Option.some.inj here).symm
      exact ⟨leader, fetch, last, List.getElem?_set_self (List.getElem?_eq_some_iff.mp there).1,
        same⟩
    · exact ⟨leader, fetch, stage, (List.getElem?_set_ne (Ne.symm moved)).trans there, same⟩
  saved := led.saved

theorem other (led : Led generation epoch table cache flights callers)
    (here : callers[position]? = some old) (before : ∀ fetch stage, old ≠ .leading fetch stage)
    (behind : ∀ fetch stage, new ≠ .leading fetch stage) :
    Led generation epoch table cache flights (callers.set position new) :=
  led.caller here (fun fetch stage same => absurd same (behind fetch stage))
    fun fetch stage same => absurd same (before fetch stage)

theorem modify {fetch : Fetch} {first last : Leading} {change : Flight → Flight}
    (led : Led generation epoch table cache flights callers)
    (here : callers[position]? = some (.leading fetch first))
    (late : last.before = false) (dated : ∀ flight, (change flight).epoch = flight.epoch)
    (of : ∀ flight, first.Of flight → last.Of (change flight))
    (saved : ∀ flight, first.Of flight → ∀ cache result, (change flight).saved = some cache →
      (change flight).result = some result → result = .ok cache.registry)
    (keeps : kept = cache ∨ fetch.epoch = epoch) :
    Led generation epoch table kept (flights.modify fetch.flight change)
      (callers.set position (.leading fetch last)) where
  staged leader again stage there := by
    rcases getElem?_set_some there with ⟨rfl, same⟩ | ⟨different, there⟩
    · cases same
      obtain ⟨flight, found, same, before⟩ := led.staged _ fetch first here
      exact ⟨change flight, getElem?_modify_self found, (dated flight).trans same, of flight before⟩
    · obtain ⟨flight, found, same, before⟩ := led.staged leader again stage there
      refine ⟨flight, (getElem?_modify_ne fun equal => different ?_).trans found, same, before⟩
      obtain ⟨own, known, mine, _⟩ := led.staged _ fetch first here
      rw [equal, known] at found
      cases found
      exact led.unique leader position again fetch stage first there here (same.symm.trans mine)
  listed leader again stage there := by
    rcases getElem?_set_some there with ⟨rfl, same⟩ | ⟨_, there⟩
    · cases same
      exact led.listed _ fetch first here
    · exact led.listed leader again stage there
  unique leader other fetch' again stage point one two := by
    have known {leader : Nat} {found : Fetch} {stage : Leading}
        (there : (callers.set position (.leading fetch last))[leader]? =
          some (.leading found stage)) :
        ∃ before, callers[leader]? = some (.leading found before) := by
      rcases getElem?_set_some there with ⟨rfl, same⟩ | ⟨_, there⟩
      · cases same
        exact ⟨first, here⟩
      · exact ⟨stage, there⟩
    obtain ⟨before, there⟩ := known one
    obtain ⟨behind, beyond⟩ := known two
    exact led.unique leader other fetch' again before behind there beyond
  current leader again stage there before now := by
    rcases getElem?_set_some there with ⟨rfl, same⟩ | ⟨different, there⟩
    · cases same
      rw [late] at before
      cases before
    · rcases keeps with rfl | mine
      · exact led.current leader again stage there before now
      · exact absurd (led.unique leader position again fetch stage first there here
          (now.trans mine.symm)) different
  led id flight found unpublished := by
    obtain ⟨before, there, form⟩ := getElem?_modify_some found
    have inside := (List.getElem?_eq_some_iff.mp here).1
    rcases form with ⟨rfl, _⟩ | ⟨different, rfl⟩
    · exact ⟨position, fetch, last, List.getElem?_set_self inside, rfl⟩
    · obtain ⟨leader, again, stage, leads, same⟩ := led.led id flight there unpublished
      by_cases moved : leader = position
      · subst moved
        rw [here] at leads
        cases leads
        exact absurd same.symm different
      · exact ⟨leader, again, stage, (List.getElem?_set_ne (Ne.symm moved)).trans leads, same⟩
  saved flight member cache result := by
    obtain ⟨id, found⟩ := List.mem_iff_getElem?.mp member
    obtain ⟨before, there, form⟩ := getElem?_modify_some found
    rcases form with ⟨rfl, rfl⟩ | ⟨_, rfl⟩
    · obtain ⟨own, known, _, stage⟩ := led.staged _ fetch first here
      rw [known] at there
      obtain rfl := Option.some.inj there
      exact saved own stage cache result
    · exact led.saved flight (List.mem_of_getElem? there) cache result

theorem starts {fetch : Fetch} {flight : Flight}
    (led : Led generation epoch table cache flights callers)
    (here : callers[position]? = some old) (before : ∀ fetch stage, old ≠ .leading fetch stage)
    (free : table generation = none) (now : fetch.epoch = epoch)
    (mine : fetch.flight = flights.length) (cached : fetch.cached = cache)
    (fresh : flight.epoch = epoch ∧ flight.saved = none ∧ flight.result = none) :
    Led generation epoch (Function.update table generation (some flights.length)) cache
      (flights ++ [flight]) (callers.set position (.leading fetch .requesting)) where
  staged leader again stage there := by
    rcases getElem?_set_some there with ⟨rfl, same⟩ | ⟨_, there⟩
    · cases same
      refine ⟨flight, ?_, fresh.1.trans now.symm, fresh.2⟩
      rw [mine]
      exact List.getElem?_concat_length
    · obtain ⟨found, known, rest⟩ := led.staged leader again stage there
      exact ⟨found, (List.getElem?_append_left (List.getElem?_eq_some_iff.mp known).1).trans known,
        rest⟩
  listed leader again stage there same := by
    rw [Function.update_self]
    rcases getElem?_set_some there with ⟨rfl, equal⟩ | ⟨_, there⟩
    · cases equal
      rw [mine]
    · have listed := led.listed leader again stage there same
      rw [free] at listed
      cases listed
  unique leader other fetch' again stage point one two same := by
    have nobody {leader : Nat} {found : Fetch} {stage : Leading}
        (there : callers[leader]? = some (.leading found stage)) : found.epoch ≠ epoch := by
      intro equal
      have listed := led.listed leader found stage there equal
      rw [free] at listed
      cases listed
    rcases getElem?_set_some one with ⟨rfl, first⟩ | ⟨_, first⟩
    · cases first
      rcases getElem?_set_some two with ⟨rfl, _⟩ | ⟨_, second⟩
      · rfl
      · exact absurd (same.symm.trans now) (nobody second)
    · rcases getElem?_set_some two with ⟨rfl, second⟩ | ⟨_, second⟩
      · cases second
        exact absurd (same.trans now) (nobody first)
      · exact led.unique leader other fetch' again stage point first second same
  current leader again stage there early same := by
    rcases getElem?_set_some there with ⟨rfl, equal⟩ | ⟨_, there⟩
    · cases equal
      exact cached.symm
    · exact led.current leader again stage there early same
  led id found there unpublished := by
    have inside := (List.getElem?_eq_some_iff.mp here).1
    rcases getElem?_append_some there with ⟨rfl, _⟩ | ⟨_, there⟩
    · exact ⟨position, fetch, .requesting, List.getElem?_set_self inside, mine⟩
    · obtain ⟨leader, again, stage, leads, same⟩ := led.led id found there unpublished
      refine ⟨leader, again, stage, (List.getElem?_set_ne fun equal => ?_).trans leads, same⟩
      subst equal
      rw [here] at leads
      exact before again stage (Option.some.inj leads)
  saved found member := by
    rcases List.mem_append.mp member with earlier | new
    · exact led.saved found earlier
    · obtain rfl := List.mem_singleton.mp new
      intro cache result saved
      rw [fresh.2.1] at saved
      cases saved

theorem changes {now : Nat} (led : Led generation epoch table cache flights callers)
    (dated : ∀ (leader : Nat) (fetch : Fetch) (stage : Leading),
      callers[leader]? = some (.leading fetch stage) → fetch.epoch ≤ epoch) :
    Led now (epoch + 1) (fun _ => none) none flights callers where
  staged := led.staged
  listed leader fetch stage there same := absurd (dated leader fetch stage there) (by omega)
  unique := led.unique
  current leader fetch stage there _ same := absurd (dated leader fetch stage there) (by omega)
  led := led.led
  saved := led.saved

theorem removes {fetch : Fetch} {result : Except String Obtained}
    (led : Led generation epoch table cache flights callers)
    (here : callers[position]? = some (.leading fetch (.removing result)))
    (behind : ∀ fetch stage, new ≠ .leading fetch stage)
    (apart : fetch.epoch ≠ epoch → fetch.generation ≠ generation) :
    Led generation epoch (Function.update table fetch.generation none) cache flights
      (callers.set position new) where
  staged leader again stage there := by
    rcases getElem?_set_some there with ⟨_, same⟩ | ⟨_, there⟩
    · exact absurd same.symm (behind again stage)
    · exact led.staged leader again stage there
  listed leader again stage there now := by
    rcases getElem?_set_some there with ⟨_, same⟩ | ⟨different, there⟩
    · exact absurd same.symm (behind again stage)
    · rw [Function.update_of_ne]
      · exact led.listed leader again stage there now
      · refine fun same => apart (fun mine => different ?_) same.symm
        exact led.unique leader position again fetch stage _ there here (now.trans mine.symm)
  unique leader other fetch' again stage point one two := by
    rcases getElem?_set_some one with ⟨_, same⟩ | ⟨_, first⟩
    · exact absurd same.symm (behind fetch' stage)
    · rcases getElem?_set_some two with ⟨_, same⟩ | ⟨_, second⟩
      · exact absurd same.symm (behind again point)
      · exact led.unique leader other fetch' again stage point first second
  current leader again stage there := by
    rcases getElem?_set_some there with ⟨_, same⟩ | ⟨_, there⟩
    · exact absurd same.symm (behind again stage)
    · exact led.current leader again stage there
  led id flight found unpublished := by
    obtain ⟨leader, again, stage, leads, same⟩ := led.led id flight found unpublished
    refine ⟨leader, again, stage, (List.getElem?_set_ne fun equal => ?_).trans leads, same⟩
    subst equal
    rw [here] at leads
    cases leads
    obtain ⟨own, known, _, published, _⟩ := led.staged _ fetch _ here
    rw [same, found] at known
    cases known
    rw [unpublished] at published
    cases published
  saved := led.saved

end Led

end LosslessMusic.Extensions.Repository
