import LosslessMusic.Extensions.Repository

/-!
# What a step of the repository can do

A caller goes on by itself, enters or leaves an operation, or does one of the few things that
change what all of them share.
-/

namespace LosslessMusic.Extensions.Repository

open Transition

variable {libraries : Libraries} {system next : System}

/-! ## What a refresh comes to -/

/-- The caches a refresh may save: the one it has sent the validators of, or a new one. -/
inductive Prepared (fetch : Fetch) : Bool → Cache → Prop
  | prolongs (old : Cache) (now : Int) : fetch.cached = some old →
      Prepared fetch true { old with cacheTime := now }
  | reads (registry : Registry) (now : Int) (etag lastModified : String) :
      Prepared fetch false ⟨fetch.url, ⟨registry, fetch.url, fetch.epoch⟩, now, etag, lastModified⟩

/-- The results of a refresh that saves nothing. -/
inductive Unsaved (fetch : Fetch) : Except String Obtained → Prop
  | fails (error : String) : Unsaved fetch (.error error)
  | keeps (old : Cache) : fetch.cached = some old → Unsaved fetch (.ok old.registry)

theorem unsaved_fallback (fetch : Fetch) (error : String) :
    Unsaved fetch (fallback fetch.cached error) := by
  cases cached : fetch.cached with
  | none => exact .fails error
  | some cache => exact .keeps cache cached

theorem judge_spec (fetch : Fetch) (now : Int) (answer : Answer) :
    (∀ result, judge fetch.url fetch.epoch fetch.cached now answer = .result result →
      Unsaved fetch result) ∧
    ∀ notModified cache,
      judge fetch.url fetch.epoch fetch.cached now answer = .cache notModified cache →
        Prepared fetch notModified cache := by
  simp only [judge]
  split
  next error read =>
    split
    · exact ⟨fun _ same => Judgement.result.inj same ▸ .fails error, nofun⟩
    · exact ⟨fun _ same => Judgement.result.inj same ▸ unsaved_fallback fetch error, nofun⟩
  next status etag lastModified body read =>
    split
    next cache cached =>
      split
      · exact ⟨fun _ same => Judgement.result.inj same ▸ .keeps cache cached, nofun⟩
      · split
        · refine ⟨nofun, fun _ _ same => ?_⟩
          cases same
          exact .prolongs cache now cached
        · split
          · exact ⟨fun _ same => Judgement.result.inj same ▸ .keeps cache cached, nofun⟩
          next registry =>
            refine ⟨nofun, fun _ _ same => ?_⟩
            cases same
            exact .reads registry now _ _
    next =>
      split
      · exact ⟨fun _ same => Judgement.result.inj same ▸ .fails _, nofun⟩
      · split
        next error => exact ⟨fun _ same => Judgement.result.inj same ▸ .fails error, nofun⟩
        next registry =>
          refine ⟨nofun, fun _ _ same => ?_⟩
          cases same
          exact .reads registry now _ _

/-! ## Callers on their own -/

/-- Whether a failure leads a caller to the end of its operation. -/
def Caller.fails : Caller → Bool
  | .setting | .changing _ | .calling _ | .downloading _ _ _ => true
  | .idle | .starting _ _ _ | .entered _ _ | .following _ | .leading _ _ | .fetched _ _ _
  | .leaving _ | .returned _ | .done _ _ _ => false

/-- The packages of a download, when it has chosen an entry and verified the bytes. -/
def Downloading.Sound (libraries : Libraries) (download : Download) (registry : Obtained) :
    Downloading → Prop
  | .selecting => True
  | .opening entry _ | .beginning entry _ | .streaming entry _ _ =>
    entry ∈ registry.registry.extensions ∧ entry.id = download.id
  | .verified entry _ bytes | .persisting entry _ bytes =>
    (entry ∈ registry.registry.extensions ∧ entry.id = download.id) ∧
      verify libraries entry.rawSha256 bytes = .ok ()

/-- What a caller does without a change of what is shared. -/
inductive Goes (libraries : Libraries) (system : System) : Caller → Caller → Prop
  | refused (result : Except String String) :
      Goes libraries system .idle (.returned result)
  | shut : Goes libraries system .idle (.done system.epoch .directly (.error closedError))
  | resolves (url : String) : Goes libraries system .setting (.changing url)
  | keeps (url : String) : Goes libraries system (.changing url) (.leaving (.ok ""))
  | fails (old : Caller) (error : String) : old.fails = true →
      Goes libraries system old (.leaving (.error error))
  | begins (began : Nat) (directory id : String) :
      Goes libraries system (.starting began directory id)
        (.calling ⟨began, directory, id, system.generation⟩)
  | errs (task : Task) (force : Bool) (error : String) :
      Goes libraries system (.entered task force) (.fetched task .directly (.error error))
  | finds (task : Task) (force : Bool) (cache : Cache) : system.cache = some cache →
      Goes libraries system (.entered task force) (.fetched task .directly (.ok cache.registry))
  | follows (task : Task) (force : Bool) (flight : Nat) :
      system.table system.generation = some flight →
      Goes libraries system (.entered task force)
        (.following ⟨task, system.url, system.generation, system.epoch, system.cache, flight⟩)
  | learns (fetch : Fetch) (result : Except String Obtained) :
      result = .error changedError ∨ result = .error closedError ∨
        (system.flights[fetch.flight]?).bind (·.result) = some result →
      Goes libraries system (.following fetch) (.fetched fetch.task (.followed fetch.flight) result)
  | answered (fetch : Fetch) (answer : Answer) :
      Goes libraries system (.leading fetch .requesting) (.leading fetch (.answered answer))
  | judges (fetch : Fetch) (answer : Answer) (result : Except String Obtained) :
      Unsaved fetch result →
      Goes libraries system (.leading fetch (.answered answer))
        (.leading fetch (.publishing result))
  | prepares (fetch : Fetch) (answer : Answer) (notModified : Bool) (cache : Cache) :
      Prepared fetch notModified cache →
      Goes libraries system (.leading fetch (.answered answer))
        (.leading fetch (.saving notModified cache))
  | abandons (fetch : Fetch) (notModified : Bool) (cache : Cache) (error : String) :
      Goes libraries system (.leading fetch (.saving notModified cache))
        (.leading fetch (.publishing (.error error)))
  | downloads (download : Download) (registry : Obtained) (old point : Downloading) :
      (old.Sound libraries download registry → point.Sound libraries download registry) →
      Goes libraries system (.downloading download registry old)
        (.downloading download registry point)

/-- What a step can do. -/
inductive Stepped (libraries : Libraries) (system : System) : System → Prop
  | stays : Stepped libraries system system
  | goes (caller : Nat) (old point : Caller) : system.callers[caller]? = some old →
      Goes libraries system old point →
      Stepped libraries system (system.setCaller caller point)
  | enters (caller : Nat) (old point : Caller) : system.callers[caller]? = some old →
      system.isClosed = false →
      ((old = .idle ∧ (point = .setting ∨ (∃ force, point = .entered (.fetch system.epoch) force) ∨
        ∃ directory id, point = .starting system.epoch directory id)) ∨
      ∃ download, old = .calling download ∧ point = .entered (.download download) false) →
      Stepped libraries system (system.enters caller point)
  | leaves (caller : Nat) (old point : Caller) : system.callers[caller]? = some old →
      ((∃ task via result, old = .fetched task via result ∧ point = task.next via result) ∨
        ∃ result, old = .leaving result ∧ point = .returned result) →
      Stepped libraries system (system.leaves caller point)
  | changes (caller : Nat) (url : String) : system.callers[caller]? = some (.changing url) →
      Stepped libraries system ((system.clearLocked url).setCaller caller (.leaving (.ok "")))
  | clears : Stepped libraries system (system.clearLocked "")
  | leads (caller : Nat) (task : Task) (force : Bool) :
      system.callers[caller]? = some (.entered task force) →
      system.table system.generation = none →
      Stepped libraries system (system.take caller task)
  | saves (caller : Nat) (fetch : Fetch) (notModified large : Bool) (cache : Cache) :
      system.callers[caller]? = some (.leading fetch (.saving notModified cache)) →
      system.generation = fetch.generation →
      Stepped libraries system (system.save caller fetch notModified large cache)
  | publishes (caller : Nat) (fetch : Fetch) (result : Except String Obtained) :
      system.callers[caller]? = some (.leading fetch (.publishing result)) →
      Stepped libraries system
        { system.setCaller caller (.leading fetch (.removing result)) with
          flights := system.flights.modify fetch.flight fun flight =>
            { flight with result := some result } }
  | removes (caller : Nat) (fetch : Fetch) (result : Except String Obtained) :
      system.callers[caller]? = some (.leading fetch (.removing result)) →
      Stepped libraries system
        { system.setCaller caller (.fetched fetch.task (.led fetch.flight) result) with
          table := Function.update system.table fetch.generation none }
  | persists (caller : Nat) (download : Download) (registry : Obtained) (entry : RepoExtension)
      (destination : String) (bytes : Bytes) :
      system.callers[caller]? =
        some (.downloading download registry (.persisting entry destination bytes)) →
      Stepped libraries system
        { system.setCaller caller (.leaving (.ok destination)) with
          packages := ⟨entry, registry, destination, bytes⟩ :: system.packages }
  | shuts (thread : Nat) : system.shutdowns thread = .idle →
      Stepped libraries system
        { system with
          closed := true
          shutdowns := Function.update system.shutdowns thread .waiting }
  | awakes (thread : Nat) : system.shutdowns thread = .waiting → system.pending = 0 →
      Stepped libraries system
        { system with shutdowns := Function.update system.shutdowns thread .ended }
  | closes : Stepped libraries system { system with parentClosed := true }

theorem checkGeneration_ok {generation : Nat}
    (checked : system.checkGeneration generation = .ok ()) :
    system.isClosed = false ∧ system.generation = generation := by
  simp only [System.checkGeneration] at checked
  split at checked
  · cases checked
  · split at checked
    · cases checked
    next opened same => exact ⟨Bool.not_eq_true _ ▸ opened, not_not.mp same⟩

theorem checkGeneration_error {generation : Nat} {error : String}
    (checked : system.checkGeneration generation = .error error) :
    error = changedError ∨ error = closedError := by
  simp only [System.checkGeneration] at checked
  split at checked
  · cases checked
    exact .inr rfl
  · split at checked
    · cases checked
      exact .inl rfl
    · cases checked

variable {caller : Nat}

theorem stepped_of_entering (here : system.callers[caller]? = some .idle) (operation : Operation) :
    Stepped libraries system (system.entering caller operation) := by
  cases operation with
  | setRegistryUrl =>
    simp only [System.entering]
    split
    · exact .goes caller .idle _ here (.refused _)
    next opened =>
      exact .enters caller .idle _ here (Bool.not_eq_true _ ▸ opened) (.inl ⟨rfl, .inl rfl⟩)
  | fetch force =>
    simp only [System.entering]
    split
    · exact .goes caller .idle _ here .shut
    next opened =>
      exact .enters caller .idle _ here (Bool.not_eq_true _ ▸ opened)
        (.inl ⟨rfl, .inr (.inl ⟨force, rfl⟩)⟩)
  | download directory id =>
    simp only [System.entering]
    split
    · exact .goes caller .idle _ here (.refused _)
    next opened =>
      exact .enters caller .idle _ here (Bool.not_eq_true _ ▸ opened)
        (.inl ⟨rfl, .inr (.inr ⟨directory, id, rfl⟩)⟩)

variable {event : Event} {old : Caller}

theorem stepped_of_setting (here : system.callers[caller]? = some old)
    (step : system.setting libraries caller old event = some next) :
    Stepped libraries system next := by
  simp only [System.setting] at step
  split at step
  next =>
    split at step
    next error =>
      cases step
      exact .goes caller .setting _ here (.fails _ error rfl)
    next url =>
      split at step <;> cases step
      next error _ => exact .goes caller .setting _ here (.fails _ error rfl)
      next => exact .goes caller .setting _ here (.resolves url)
  next url _ =>
    split at step
    · cases step
      exact .goes caller (.changing url) _ here (.fails _ _ rfl)
    · split at step <;> cases step
      · exact .goes caller (.changing url) _ here (.keeps url)
      · exact .changes caller url here
  next => cases step

theorem stepped_of_take {task : Task} {force : Bool}
    (here : system.callers[caller]? = some (.entered task force)) :
    Stepped libraries system (system.take caller task) := by
  cases found : system.table system.generation with
  | none => exact .leads caller task force here found
  | some flight =>
    simp only [System.take, found]
    exact .goes caller _ _ here (.follows task force flight found)

theorem stepped_of_look {task : Task} {force : Bool} {now : Int}
    (here : system.callers[caller]? = some (.entered task force)) :
    Stepped libraries system (system.look libraries caller task force now) := by
  simp only [System.look]
  split
  · exact .goes caller _ _ here (.errs task force _)
  · split
    next error _ => exact .goes caller _ _ here (.errs task force error)
    next =>
      split
      next cache cached =>
        split
        · exact .goes caller _ _ here (.finds task force cache cached)
        · exact stepped_of_take here
      next => exact stepped_of_take here

theorem stepped_of_fetching (here : system.callers[caller]? = some old)
    (step : system.fetching libraries caller old event = some next) :
    Stepped libraries system next := by
  simp only [System.fetching] at step
  split at step
  next task force _ now =>
    cases step
    exact stepped_of_look here
  next fetch _ =>
    split at step
    next error checked =>
      cases step
      refine .goes caller _ _ here (.learns fetch _ ?_)
      rcases checkGeneration_error checked with rfl | rfl
      · exact .inl rfl
      · exact .inr (.inl rfl)
    next =>
      split at step <;> cases step
      next result known => exact .goes caller _ _ here (.learns fetch result (.inr (.inr known)))
      next => exact .stays
  next fetch _ answer =>
    cases step
    exact .goes caller _ _ here (.answered fetch answer)
  next fetch answer _ now =>
    split at step
    next error _ =>
      cases step
      exact .goes caller _ _ here (.judges fetch answer _ (.fails error))
    next =>
      split at step <;> cases step
      next result judged =>
        exact .goes caller _ _ here
          (.judges fetch answer result ((judge_spec fetch now answer).1 result judged))
      next notModified cache judged =>
        exact .goes caller _ _ here (.prepares fetch answer notModified cache
          ((judge_spec fetch now answer).2 notModified cache judged))
  next fetch notModified cache _ large =>
    split at step <;> cases step
    next error _ => exact .goes caller _ _ here (.abandons fetch notModified cache error)
    next checked =>
      exact .saves caller fetch notModified large cache here (checkGeneration_ok checked).2
  next fetch result _ =>
    cases step
    exact .publishes caller fetch result here
  next fetch result _ =>
    cases step
    exact .removes caller fetch result here
  next => cases step

theorem readChunk_spec {expected : String} {bytes more : Bytes} {ended : Bool}
    {chunk : Except String Bytes}
    (read : System.readChunk libraries expected bytes chunk = .ok (more, ended)) :
    ended = true → verify libraries expected more = .ok () := by
  intro ended
  subst ended
  cases chunk with
  | error error => cases read
  | ok chunk =>
    simp only [System.readChunk] at read
    split at read
    · split at read <;> cases read
      next verified => exact verified
    · split at read
      · cases read
      · split at read <;> cases read

theorem select_spec {download : Download} {registry : Obtained} {entry : RepoExtension}
    {destination : String}
    (selected : System.select libraries download registry = .ok (entry, destination)) :
    entry ∈ registry.registry.extensions ∧ entry.id = download.id := by
  simp only [System.select] at selected
  split at selected
  · cases selected
  next found known =>
    split at selected
    · cases selected
    · split at selected <;> cases selected
      exact ⟨List.mem_of_find?_eq_some known, by simpa using List.find?_some known⟩

theorem stepped_of_downloading (here : system.callers[caller]? = some old)
    (step : system.downloading libraries caller old event = some next) :
    Stepped libraries system next := by
  simp only [System.downloading] at step
  split at step
  next began directory id _ =>
    cases step
    exact .goes caller _ _ here (.begins began directory id)
  next download _ =>
    split at step <;> cases step
    · exact .goes caller _ _ here (.fails _ _ rfl)
    next opened =>
      exact .enters caller _ _ here (Bool.not_eq_true _ ▸ opened) (.inr ⟨download, rfl, rfl⟩)
  next download registry _ =>
    split at step <;> cases step
    next error _ => exact .goes caller _ _ here (.fails _ error rfl)
    next entry destination selected =>
      exact .goes caller _ _ here (.downloads download registry _ _ fun _ => select_spec selected)
  next download registry entry destination _ status =>
    split at step
    next error =>
      cases step
      exact .goes caller _ _ here (.fails _ _ rfl)
    next =>
      split at step <;> cases step
      · exact .goes caller _ _ here (.fails _ _ rfl)
      · exact .goes caller _ _ here (.downloads download registry _ _ fun sound => sound)
  next download registry entry destination _ =>
    split at step <;> cases step
    · exact .goes caller _ _ here (.fails _ _ rfl)
    · exact .goes caller _ _ here (.downloads download registry _ _ fun sound => sound)
  next download registry entry destination bytes _ chunk =>
    split at step
    · cases step
      exact .goes caller _ _ here (.fails _ _ rfl)
    · split at step <;> cases step
      · exact .goes caller _ _ here (.fails _ _ rfl)
      next more ended read =>
        refine .goes caller _ _ here (.downloads download registry _ _ fun sound => ?_)
        split
        next ended => exact ⟨sound, readChunk_spec read ended⟩
        next => exact sound
  next download registry entry destination bytes _ =>
    split at step <;> cases step
    · exact .goes caller _ _ here (.fails _ _ rfl)
    · exact .goes caller _ _ here (.downloads download registry _ _ fun sound => sound)
  next download registry entry destination bytes _ =>
    cases step
    exact .persists caller download registry entry destination bytes here
  next => cases step

theorem stepped_of_moves (here : system.callers[caller]? = some old)
    (step : system.moves libraries caller event old = some next) :
    Stepped libraries system next := by
  cases old with
  | idle =>
    simp only [System.moves] at step
    split at step <;> cases step
    next operation => exact stepped_of_entering here operation
  | setting => exact stepped_of_setting here step
  | changing url => exact stepped_of_setting here step
  | entered _ _ | following _ | leading _ _ => exact stepped_of_fetching here step
  | starting _ _ _ | calling _ | downloading _ _ _ => exact stepped_of_downloading here step
  | fetched task via result =>
    simp only [System.moves] at step
    split at step <;> cases step
    exact .leaves caller _ _ here (.inl ⟨task, via, result, rfl, rfl⟩)
  | leaving result =>
    simp only [System.moves] at step
    split at step <;> cases step
    exact .leaves caller _ _ here (.inr ⟨result, rfl, rfl⟩)
  | returned result => cases step
  | done began via result => cases step

theorem stepped_of_step (step : system.step libraries event = some next) :
    Stepped libraries system next := by
  simp only [System.step] at step
  split at step
  next caller _ =>
    obtain ⟨old, here, step⟩ := Option.bind_eq_some_iff.mp step
    exact stepped_of_moves here step
  next =>
    split at step
    · cases step
      exact .clears
    next thread _ =>
      split at step <;> cases step
      next idle => exact .shuts thread idle
    next thread _ =>
      split at step
      next waiting =>
        split at step <;> cases step
        next none => exact .awakes thread waiting none
      next => cases step
    · cases step
      exact .closes
    · cases step

end LosslessMusic.Extensions.Repository
