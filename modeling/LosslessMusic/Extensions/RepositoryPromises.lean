import LosslessMusic.Extensions.RepositoryRuns

/-!
# What the repository promises

Everything together holds in every run whose operations are not older than all generations,
and fails in a run that lasts longer.
-/

namespace LosslessMusic.Extensions.Repository

open Transition

variable {libraries : Libraries} {system next : System}

/-! ## Followers -/

/-- A follower behind its flight. -/
def Ended (follower : Nat) (fetch : Fetch) (system : System) : Prop :=
  ∃ result, system.callers[follower]? = some (.fetched fetch.task (.followed fetch.flight) result)

/-- The steps of a follower and of a leader lead there. -/
def Ends (libraries : Libraries) (leader follower : Nat) (fetch : Fetch) (system : System) :
    Prop :=
  (machine libraries).Leads
    (fun _ event => event.caller? = some leader ∨ event.caller? = some follower) system
    (Ended follower fetch)

section Ends

variable {leader follower : Nat} {fetch lead : Fetch} {flight : Flight}

variable {result : Except String Obtained}

theorem ends_of_result (here : system.callers[follower]? = some (.following fetch))
    (found : system.flights[fetch.flight]? = some flight)
    (published : flight.result = some result) : Ends libraries leader follower fetch system := by
  have inside := (List.getElem?_eq_some_iff.mp here).1
  have known : (system.flights[fetch.flight]?).bind (·.result) = some result := by
    rw [found]
    exact published
  cases checked : system.checkGeneration fetch.generation with
  | error error =>
    have step : system.step libraries (.poll follower) = some (system.setCaller follower
        (.fetched fetch.task (.followed fetch.flight) (.error error))) := by
      simp only [System.step, Event.caller?, here, Option.bind_some, System.moves,
        System.fetching, checked]
    exact .step (.poll follower) (.inr rfl) step
      (.here ⟨.error error, List.getElem?_set_self inside⟩)
  | ok checked' =>
    have step : system.step libraries (.poll follower) = some (system.setCaller follower
        (.fetched fetch.task (.followed fetch.flight) result)) := by
      simp only [System.step, Event.caller?, here, Option.bind_some, System.moves,
        System.fetching, checked]
      split
      next other same =>
        obtain rfl := Option.some.inj (known.symm.trans same)
        rfl
      next none => exact absurd (known.symm.trans none) (Option.some_ne_none result)
    exact .step (.poll follower) (.inr rfl) step (.here ⟨result, List.getElem?_set_self inside⟩)

theorem ends_of_publishing (here : system.callers[follower]? = some (.following fetch))
    (leads : system.callers[leader]? = some (.leading lead (.publishing result)))
    (same : lead.flight = fetch.flight) (found : system.flights[fetch.flight]? = some flight) :
    Ends libraries leader follower fetch system := by
  have different : leader ≠ follower := by
    rintro rfl
    rw [here] at leads
    cases leads
  have step : system.step libraries (.publish leader) =
      some { system.setCaller leader (.leading lead (.removing result)) with
        flights := system.flights.modify lead.flight fun flight =>
          { flight with result := some result } } := by
    simp only [System.step, Event.caller?, leads, Option.bind_some, System.moves, System.fetching]
  have published : (system.flights.modify lead.flight fun flight =>
      { flight with result := some result })[fetch.flight]? =
        some { flight with result := some result } :=
    same ▸ getElem?_modify_self (same ▸ found)
  exact .step (.publish leader) (.inl rfl) step
    (ends_of_result ((List.getElem?_set_ne different).trans here) published rfl)

/-- A leader that has something to save publishes next, saved or not. -/
theorem ends_of_saving {notModified : Bool} {cache : Cache}
    (here : system.callers[follower]? = some (.following fetch))
    (leads : system.callers[leader]? = some (.leading lead (.saving notModified cache)))
    (same : lead.flight = fetch.flight) (found : system.flights[fetch.flight]? = some flight) :
    Ends libraries leader follower fetch system := by
  have inside := (List.getElem?_eq_some_iff.mp leads).1
  have different : leader ≠ follower := by
    rintro rfl
    rw [here] at leads
    cases leads
  have still (point : Caller) : (system.callers.set leader point)[follower]? =
      some (.following fetch) := (List.getElem?_set_ne different).trans here
  cases checked : system.checkGeneration lead.generation with
  | error error =>
    have step : system.step libraries (.save leader false) =
        some (system.setCaller leader (.leading lead (.publishing (.error error)))) := by
      simp only [System.step, Event.caller?, leads, Option.bind_some, System.moves,
        System.fetching, checked]
    exact .step (.save leader false) (.inl rfl) step
      (ends_of_publishing (still _) (List.getElem?_set_self inside) same found)
  | ok checked' =>
    have step : system.step libraries (.save leader false) =
        some (system.save leader lead notModified false cache) := by
      simp only [System.step, Event.caller?, leads, Option.bind_some, System.moves,
        System.fetching, checked]
    have saved : (system.flights.modify lead.flight fun flight =>
        { flight with saved := some cache })[fetch.flight]? =
          some { flight with saved := some cache } :=
      same ▸ getElem?_modify_self (same ▸ found)
    exact .step (.save leader false) (.inl rfl) step
      (ends_of_publishing (still _) (List.getElem?_set_self inside) same saved)

theorem ends_of_answered {answer : Answer}
    (here : system.callers[follower]? = some (.following fetch))
    (leads : system.callers[leader]? = some (.leading lead (.answered answer)))
    (same : lead.flight = fetch.flight) (found : system.flights[fetch.flight]? = some flight) :
    Ends libraries leader follower fetch system := by
  have inside := (List.getElem?_eq_some_iff.mp leads).1
  have different : leader ≠ follower := by
    rintro rfl
    rw [here] at leads
    cases leads
  have still (point : Caller) : (system.callers.set leader point)[follower]? =
      some (.following fetch) := (List.getElem?_set_ne different).trans here
  cases checked : system.checkGeneration lead.generation with
  | error error =>
    have step : system.step libraries (.judge leader 0) =
        some (system.setCaller leader (.leading lead (.publishing (.error error)))) := by
      simp only [System.step, Event.caller?, leads, Option.bind_some, System.moves,
        System.fetching, checked]
    exact .step (.judge leader 0) (.inl rfl) step
      (ends_of_publishing (still _) (List.getElem?_set_self inside) same found)
  | ok checked' =>
    cases judged : judge lead.url lead.epoch lead.cached 0 answer with
    | result result =>
      have step : system.step libraries (.judge leader 0) =
          some (system.setCaller leader (.leading lead (.publishing result))) := by
        simp only [System.step, Event.caller?, leads, Option.bind_some, System.moves,
          System.fetching, checked, judged]
      exact .step (.judge leader 0) (.inl rfl) step
        (ends_of_publishing (still _) (List.getElem?_set_self inside) same found)
    | cache notModified cache =>
      have step : system.step libraries (.judge leader 0) =
          some (system.setCaller leader (.leading lead (.saving notModified cache))) := by
        simp only [System.step, Event.caller?, leads, Option.bind_some, System.moves,
          System.fetching, checked, judged]
      exact .step (.judge leader 0) (.inl rfl) step
        (ends_of_saving (still _) (List.getElem?_set_self inside) same found)

theorem ends_of_requesting (here : system.callers[follower]? = some (.following fetch))
    (leads : system.callers[leader]? = some (.leading lead .requesting))
    (same : lead.flight = fetch.flight) (found : system.flights[fetch.flight]? = some flight) :
    Ends libraries leader follower fetch system := by
  have different : leader ≠ follower := by
    rintro rfl
    rw [here] at leads
    cases leads
  have step : system.step libraries (.answer leader .oversized) =
      some (system.setCaller leader (.leading lead (.answered .oversized))) := by
    simp only [System.step, Event.caller?, leads, Option.bind_some, System.moves, System.fetching]
  exact .step (.answer leader .oversized) (.inl rfl) step
    (ends_of_answered ((List.getElem?_set_ne different).trans here)
      (List.getElem?_set_self (List.getElem?_eq_some_iff.mp leads).1) same found)

end Ends

/-! ## Checksums -/

theorem first_trimmed (values : List String)
    (trimmed : ∀ value ∈ values, Text.trimWhite value = value) :
    Text.trimWhite (first values) = first values := by
  unfold first
  cases found : values.find? fun value => !value.isEmpty with
  | none => rfl
  | some value => exact trimmed value (List.mem_of_find?_eq_some found)

theorem rawSha256_trimmed (entry : RepoExtension) :
    Text.trimWhite entry.rawSha256 = entry.rawSha256 := by
  refine first_trimmed _ fun value member => ?_
  simp only [List.mem_cons, List.not_mem_nil, or_false] at member
  rcases member with rfl | rfl | rfl
  all_goals exact Text.trimWhite_trimWhite _

theorem eq_of_zip {first second : List Char} (length : first.length = second.length)
    (same : (first.zip second).any (fun pair => pair.1 != pair.2) = false) : first = second := by
  induction first generalizing second with
  | nil => exact (List.length_eq_zero_iff.mp length.symm).symm
  | cons head tail ih =>
    cases second with
    | nil => cases length
    | cons other rest =>
      simp only [List.zip_cons_cons, List.any_cons, Bool.or_eq_false_iff,
        bne_eq_false_iff_eq] at same
      rw [same.1, ih (Nat.succ.inj length) same.2]

theorem lowerHex_length (bytes : Bytes) : (lowerHex bytes).toList.length = 2 * bytes.length := by
  rw [lowerHex, String.toList_ofList]
  induction bytes with
  | nil => rfl
  | cons byte rest ih =>
    simp only [List.flatMap_cons, List.length_append, List.length_cons, List.length_nil]
    omega

theorem chosen_length (normalized : List Char)
    (chosen : (if normalized.length = 64 ∧ normalized.all isHexDigit = true then
      String.ofList normalized else "") ≠ "") :
    (if normalized.length = 64 ∧ normalized.all isHexDigit = true then
      String.ofList normalized else "").toList.length = 64 := by
  split at chosen
  next good =>
    rw [if_pos good, String.toList_ofList]
    exact good.1
  next => exact absurd rfl chosen

theorem normalizeSha256_length {value : String} (normal : normalizeSha256 value ≠ "") :
    (normalizeSha256 value).toList.length = 64 := by
  unfold normalizeSha256 at normal ⊢
  exact chosen_length _ normal

theorem verify_spec {entry : RepoExtension} {bytes : Bytes}
    (verified : verify libraries entry.rawSha256 bytes = .ok ()) (given : entry.rawSha256 ≠ "") :
    normalizeSha256 entry.rawSha256 ≠ "" ∧
      lowerHex (libraries.digest bytes) = normalizeSha256 entry.rawSha256 := by
  have filled : entry.rawSha256.isEmpty = false :=
    Bool.eq_false_iff.mpr fun empty => given (String.isEmpty_iff.mp empty)
  simp only [verify, rawSha256_trimmed, filled, true_and] at verified
  split at verified
  · cases verified
  next normal =>
    have normal : normalizeSha256 entry.rawSha256 ≠ "" :=
      fun empty => normal (String.isEmpty_iff.mpr empty)
    refine ⟨normal, ?_⟩
    split at verified
    · cases verified
    next same =>
      have full : (normalizeSha256 entry.rawSha256).isEmpty = false :=
        Bool.eq_false_iff.mpr fun empty => normal (String.isEmpty_iff.mp empty)
      refine String.toList_inj.mp (eq_of_zip ?_ (Bool.eq_false_iff.mpr fun differs =>
        same ⟨full, differs⟩))
      rw [lowerHex_length, libraries.digest_length, normalizeSha256_length normal]

/-! ## All of it -/

/-- What holds of the repository at any time. -/
structure Sound (libraries : Libraries) (file : Option Cache) (system : System) : Prop where
  knowing : Knowing libraries system
  led : Led system.generation system.epoch system.table system.cache system.flights system.callers
  logged : Logged file system.cache system.file system.flights system.log
  verified : Verified libraries system.packages
  counted : Counted system.pending system.callers system.closed system.shutdowns

variable {file : Option Cache}

theorem sound_beginning (callers : Nat)
    (obtained : ∀ cache, file = some cache → cache.registry.url = cache.registryUrl ∧
      cache.registry.epoch = 0) :
    Sound libraries file (System.beginning callers file) where
  knowing := by
    have of (cache : Cache) (same : file = some cache) :
        cache.Of (System.beginning callers file).url 0 := by
      subst same
      exact ⟨rfl, (obtained cache rfl).1, (obtained cache rfl).2⟩
    refine ⟨⟨rfl, rfl, rfl, of, of⟩, ⟨nofun, nofun⟩, fun point member => ?_⟩
    obtain rfl := List.eq_of_mem_replicate member
    trivial
  led := by
    have idle {caller : Nat} {fetch : Fetch} {stage : Leading}
        (here : (System.beginning callers file).callers[caller]? = some (.leading fetch stage)) :
        False := Caller.noConfusion (List.eq_of_mem_replicate (List.mem_of_getElem? here))
    exact ⟨fun _ _ _ here => (idle here).elim, fun _ _ _ here => (idle here).elim,
      fun _ _ _ _ _ _ here => (idle here).elim, fun _ _ _ here => (idle here).elim, nofun, nofun⟩
  logged := by
    refine ⟨rfl, rfl, fun _ _ _ _ _ _ suffix => ?_⟩
    cases List.suffix_nil.mp suffix
  verified := nofun
  counted := by
    refine ⟨?_, fun _ busy => absurd rfl busy, fun _ _ => rfl⟩
    simp only [System.beginning, List.map_replicate, List.sum_replicate_nat]
    rfl

theorem Sound.stepped (sound : Sound libraries file system)
    (recent : system.Recent) (stepped : Stepped libraries system next) :
    Sound libraries file next where
  knowing := sound.knowing.stepped sound.led recent stepped
  led := sound.led.stepped sound.knowing recent stepped
  logged := sound.logged.stepped sound.led sound.knowing recent stepped
  verified := sound.verified.stepped sound.knowing stepped
  counted := sound.counted.stepped stepped

theorem Sound.ends (sound : Sound libraries file system) {follower : Nat} {fetch : Fetch}
    (here : system.callers[follower]? = some (.following fetch)) :
    ∃ leader, Ends libraries leader follower fetch system := by
  have known : fetch.Known system.epoch system.urls system.flights :=
    sound.knowing.known (.following fetch) (List.mem_of_getElem? here)
  obtain ⟨flight, found, _⟩ := known.flight
  cases result : flight.result with
  | some result => exact ⟨follower, ends_of_result here found result⟩
  | none =>
    obtain ⟨leader, lead, stage, leads, same⟩ := sound.led.led _ flight found result
    refine ⟨leader, ?_⟩
    cases stage with
    | requesting => exact ends_of_requesting here leads same found
    | answered answer => exact ends_of_answered here leads same found
    | saving notModified cache => exact ends_of_saving here leads same found
    | publishing published => exact ends_of_publishing here leads same found
    | removing published =>
      obtain ⟨own, mine, _, known, _⟩ := sound.led.staged leader lead _ leads
      rw [same, found] at mine
      cases mine
      rw [result] at known
      cases known

theorem Sound.promised (sound : Sound libraries file system) :
    system.Promised libraries file where
  cached cache known := by
    have of : cache.Of system.url system.epoch := by
      rcases known with cached | filed
      · exact sound.knowing.dated.cache cache cached
      · exact sound.knowing.dated.file cache filed
    exact ⟨of.registryUrl, of.url, of.epoch⟩
  fetched began via registry member := by
    have known : Fetched system.urls system.flights began via (.ok registry) :=
      sound.knowing.known _ member
    have reached := known.registry registry rfl
    exact ⟨reached.later, reached.url⟩
  downloading download registry stage member := by
    have known := (sound.knowing.known _ member).1
    exact ⟨known.later, known.url⟩
  refreshing := sound.led.unique
  ended task began via result member := by
    have known : via.Known system.flights result := by
      rcases member with fetched | done
      · have reached : Fetched system.urls system.flights task.began via result :=
          sound.knowing.known _ fetched
        exact reached.via
      · have reached : Fetched system.urls system.flights began via result :=
          sound.knowing.known _ done
        exact reached.via
    refine ⟨fun id same => ?_, fun id same => ?_⟩
    · subst same
      exact known
    · subst same
      exact known
  ends follower fetch here := by
    obtain ⟨leader, later, path, ended⟩ := sound.ends here
    exact ⟨leader, later, path, ended⟩
  touched := ⟨sound.logged.cache, sound.logged.file⟩
  saved id sent notModified cache written earlier suffix := by
    have ⟨⟨flight, found, saved⟩, sends⟩ :=
      sound.logged.saved id sent notModified cache written earlier suffix
    refine ⟨⟨flight, found, saved, fun result published => ?_⟩, sends⟩
    exact sound.led.saved flight (List.mem_of_getElem? found) cache result saved published
  verified package member := by
    have ⟨listed, verified⟩ := sound.verified package member
    exact ⟨listed, verify_spec verified⟩
  shut thread ended point member := by
    have none := sound.counted.counts.symm.trans (sound.counted.ended thread ended)
    exact List.sum_eq_zero_iff_forall_eq_nat.mp none _ (List.mem_map_of_mem member)

/-- Every run of the repository keeps its promises, if the generation comes round during no
operation. -/
theorem repository_promised {file : Option Cache} {callers : Nat}
    (obtained : ∀ cache, file = some cache → cache.registry.url = cache.registryUrl ∧
      cache.registry.epoch = 0)
    (path : (machine libraries).Path (fun system _ => system.Recent)
      (System.beginning callers file) system) :
    system.Promised libraries file :=
  (path.preserves (sound_beginning callers obtained) fun _ _ _ sound recent step =>
    sound.stepped recent (stepped_of_step step)).promised

/-! ## Runs -/

/-- Libraries for runs without packages. -/
def plain : Libraries where
  parse _ := some ⟨"https", "example"⟩
  packagePath directory id _ := directory ++ "/" ++ id
  digest _ := List.replicate 32 0
  digest_length _ := rfl

/-- `Recent`, for runs. -/
def recent (system : System) (_ : Event) : Bool :=
  system.callers.all fun point =>
    match point.began? with
    | some began => decide (system.epoch < began + generations)
    | none => true

theorem recent_iff {event : Event} (holds : recent system event = true) : system.Recent := by
  intro point member began running
  have holds := List.all_eq_true.mp holds point member
  rw [running] at holds
  exact of_decide_eq_true holds

/-- A follower returns the registry that its leader has fetched. -/
theorem repository_promised_followed : ∃ system : System, system.Promised plain none ∧
    system.callers.any (fun point =>
      match point with
      | .done 1 (.followed 0) (.ok _) => true
      | _ => false) = true := by
  have ran : ((machine plain).run (System.beginning 3 none)
      [.enter 0 .setRegistryUrl, .resolve 0 (.ok "https://example/registry.json"), .change 0,
        .enter 1 (.fetch false), .look 1 0, .enter 2 (.fetch false), .look 2 0,
        .answer 1 (.answered 200 "" "" (.ok ⟨[]⟩)), .judge 1 0, .save 1 false, .publish 1,
        .poll 2, .leave 2]).any
      (fun system => system.callers.any fun point =>
        match point with
        | .done 1 (.followed 0) (.ok _) => true
        | _ => false) = true := by decide +kernel
  obtain ⟨final, ended, followed⟩ := (Option.any_eq_true _ _).mp ran
  have path : (machine plain).Path (fun system event => recent system event = true)
      (System.beginning 3 none) final := Machine.path_of_run ended (by decide +kernel)
  exact ⟨final, repository_promised nofun (path.mono fun _ _ holds => recent_iff holds), followed⟩

theorem cleared (libraries : Libraries) (count generation : Nat)
    (start : system.generation = generation % generations) :
    ∃ final, (machine libraries).Path Machine.anyStep system final ∧
      final.callers = system.callers ∧ final.isClosed = system.isClosed ∧
      final.generation = (generation + count) % generations ∧
      (0 < count → final.url = "") := by
  induction count with
  | zero => exact ⟨system, .refl, rfl, rfl, start, nofun⟩
  | succ count ih =>
    obtain ⟨middle, path, callers, closed, counted, _⟩ := ih
    refine ⟨middle.clearLocked "", .step .clear path trivial rfl, callers, closed, ?_, fun _ => rfl⟩
    simp only [System.clearLocked]
    rw [counted, Nat.mod_add_mod, Nat.add_assoc]

/-- A leader that waits for its answer, and a caller that is about to change the URL. -/
structure Poised (first second : String) (system : System) : Prop where
  callers : ∃ fetch point, system.callers =
    [.leading fetch .requesting, point, .changing second] ∧ fetch.url = first ∧
      fetch.generation = 1 ∧ fetch.cached = none
  opened : system.isClosed = false
  generation : system.generation = 1

theorem overtaken_of_poised (libraries : Libraries) {first second : String} (filled : second ≠ "")
    (poised : Poised first second system) :
    ∃ final, (machine libraries).Path Machine.anyStep system final ∧
      final.url = second ∧ ∃ cache, final.cache = some cache ∧ cache.registry.url = first := by
  obtain ⟨fetch, point, callers, url, generation, cached⟩ := poised.callers
  obtain ⟨middle, path, same, closed, counted, emptied⟩ :=
    cleared libraries (generations - 1) 1 poised.generation
  rw [poised.opened] at closed
  rw [callers] at same
  have round : middle.generation = 0 := counted.trans (Nat.mod_self generations)
  have empty : middle.url ≠ second := fun equal =>
    filled (equal.symm.trans (emptied (by decide)))
  let cache : Cache :=
    ⟨fetch.url, ⟨⟨[]⟩, fetch.url, fetch.epoch⟩, 0, Text.trimWhite "", Text.trimWhite ""⟩
  let changed := (middle.clearLocked second).setCaller 2 (.leaving (.ok ""))
  have changes : middle.step libraries (.change 2) = some changed := by
    simp only [System.step, Event.caller?, same, List.getElem?_cons_succ, List.getElem?_cons_zero,
      Option.bind_some, System.moves, System.setting, closed, Bool.false_eq_true, if_false, empty,
      changed]
  have first : changed.callers[0]? = some (.leading fetch .requesting) := by
    simp only [changed, System.setCaller, System.clearLocked, same]
    rfl
  have passes : changed.checkGeneration fetch.generation = .ok () := by
    have counts : changed.generation = 1 := by
      simp only [changed, System.setCaller, System.clearLocked, round]
      rfl
    have opened : changed.isClosed = false := closed
    rw [System.checkGeneration, opened, counts, generation]
    rfl
  have inside := (List.getElem?_eq_some_iff.mp first).1
  let answered := changed.setCaller 0 (.leading fetch (.answered (.answered 200 "" "" (.ok ⟨[]⟩))))
  have answers : changed.step libraries (.answer 0 (.answered 200 "" "" (.ok ⟨[]⟩))) =
      some answered := by
    simp only [System.step, Event.caller?, first, Option.bind_some, System.moves, System.fetching,
      answered]
  have second : answered.callers[0]? =
      some (.leading fetch (.answered (.answered 200 "" "" (.ok ⟨[]⟩)))) :=
    List.getElem?_set_self inside
  let judged := answered.setCaller 0 (.leading fetch (.saving false cache))
  have judges : answered.step libraries (.judge 0 0) = some judged := by
    have checked : answered.checkGeneration fetch.generation = .ok () := passes
    have decided : judge fetch.url fetch.epoch fetch.cached 0 (.answered 200 "" "" (.ok ⟨[]⟩)) =
        .cache false cache := by
      rw [cached]
      rfl
    simp only [System.step, Event.caller?, second, Option.bind_some, System.moves,
      System.fetching, checked, decided, judged]
  have third : judged.callers[0]? = some (.leading fetch (.saving false cache)) :=
    List.getElem?_set_self (List.getElem?_eq_some_iff.mp second).1
  have saves : judged.step libraries (.save 0 false) =
      some (judged.save 0 fetch false false cache) := by
    have checked : judged.checkGeneration fetch.generation = .ok () := passes
    simp only [System.step, Event.caller?, third, Option.bind_some, System.moves,
      System.fetching, checked]
  have path : (machine libraries).Path Machine.anyStep system
      (judged.save 0 fetch false false cache) := by
    refine .step (.save 0 false) ?_ trivial saves
    refine .step (.judge 0 0) ?_ trivial judges
    refine .step (.answer 0 (.answered 200 "" "" (.ok ⟨[]⟩))) ?_ trivial answers
    exact .step (.change 2) path trivial changes
  exact ⟨_, path, rfl, cache, rfl, url⟩

/-- Whether the second URL is about to be set while a fetch from the first one waits. -/
def isPoised (system : System) : Bool :=
  match system.callers with
  | [.leading fetch .requesting, _, .changing url] =>
    url == "https://second/registry.json" &&
      fetch.url == "https://first/registry.json" && fetch.generation == 1 &&
      fetch.cached.isNone && !system.isClosed && system.generation == 1
  | _ => false

/-- If the generation comes round while a refresh runs, the registry of an earlier URL is
cached under the URL of now. -/
theorem repository_overtaken : ∃ system : System, (machine plain).Reachable Machine.anyStep system ∧
      ∃ cache, system.cache = some cache ∧ cache.registry.url ≠ system.url := by
  have ran : ((machine plain).run (System.beginning 3 none)
      [.enter 1 .setRegistryUrl, .resolve 1 (.ok "https://first/registry.json"), .change 1,
        .enter 0 (.fetch false), .look 0 0, .enter 2 .setRegistryUrl,
        .resolve 2 (.ok "https://second/registry.json")]).any
      isPoised = true := by decide +kernel
  obtain ⟨poised, ended, checked⟩ := (Option.any_eq_true _ _).mp ran
  unfold isPoised at checked
  split at checked
  next fetch point url callers =>
    simp only [Bool.and_eq_true, beq_iff_eq, Option.isNone_iff_eq_none, Bool.not_eq_true']
      at checked
    obtain ⟨⟨⟨⟨⟨rfl, first⟩, generation⟩, cached⟩, opened⟩, now⟩ := checked
    obtain ⟨final, path, url, cache, kept, earlier⟩ := overtaken_of_poised plain (by decide)
      ⟨⟨fetch, point, callers, first, generation, cached⟩, opened, now⟩
    refine ⟨final, ⟨_, ⟨3, none, (by rintro _ ⟨⟩), rfl⟩, (Machine.anyPath_of_run ended).trans path⟩, cache,
      kept, ?_⟩
    rw [earlier, url]
    decide
  next => cases checked

end LosslessMusic.Extensions.Repository
