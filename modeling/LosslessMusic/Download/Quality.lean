import LosslessMusic.Text

/-!
# The quality that a provider is asked for

`find_quality` and `resolve_download_quality` of a manifest: the quality option of a provider that
stands for what was requested, or one of a kind that does not fall below it.
-/

namespace LosslessMusic.Quality

open Text (contains eqIgnoreAsciiCase toAsciiLowercase trimWhite trimWhite_trimWhite)

/-- `QualityOption`, as far as its kind is read from it. -/
structure QualityOption where
  id : String := ""
  label : String := ""
  kind : String := ""
  deriving DecidableEq

/-- `ExtensionManifest`, as far as qualities are concerned; the tier is the text of the capability
`downloadFallbackTier`. -/
structure ExtensionManifest where
  name : String
  qualityOptions : List QualityOption
  downloadFallbackTier : Option String := none

@[irreducible]
def extensionQualityKind (option : QualityOption) (manifest : Option ExtensionManifest) : String :=
  let kind := toAsciiLowercase (trimWhite option.kind)
  let token := toAsciiLowercase (trimWhite option.id)
  let text := token ++ " " ++ toAsciiLowercase option.label
  let tier := (manifest.bind (·.downloadFallbackTier)).map fun tier =>
    toAsciiLowercase (trimWhite tier)
  if kind ∈ ["lossless", "lossy", "spatial"] then kind
  else if (["atmos", "dolby", "surround"].any (contains text) ||
      token ∈ ["ac4", "ac-4", "eac3", "e-ac-3", "ec-3"]) then "spatial"
  else if ["lossless", "flac", "alac", "24-bit", "16-bit"].any (contains text) ||
      token = "hi_res" then "lossless"
  else if token = "high" || token = "low" ||
      ["mp3", "aac", "opus", "vorbis"].any (contains text) then "lossy"
  else if token ∈ ["best", "default", ""] then
    if tier = some "hi_res" ∨ tier = some "lossless" then "lossless"
    else if tier = some "low_res" then "lossy"
    else ""
  else ""

/-- The kinds that answer a request of a kind, the preferred one first. -/
def allowedKinds (kind : String) : List String :=
  if kind = "spatial" ∨ kind = "lossy" then [kind, "lossless"] else ["lossless"]

/-- What `resolve_download_quality` says where the provider has nothing for the request. -/
structure NoQuality where
  name : String
  kind : String
  requested : String
  deriving DecidableEq

namespace ExtensionManifest

/-- What `validate` asks of the quality options. -/
def validQualities (manifest : ExtensionManifest) : Bool :=
  manifest.qualityOptions.all fun option => option.kind ∈ ["", "lossless", "lossy", "spatial"]

/-- The option goes by this id. -/
def hasId (requested : String) (option : QualityOption) : Bool :=
  eqIgnoreAsciiCase (trimWhite option.id) requested

def findQuality (manifest : ExtensionManifest) (requested : String) : Option QualityOption :=
  if trimWhite requested = "" then none
  else manifest.qualityOptions.find? (hasId (trimWhite requested))

/-- The kind that is requested, by the source's list where it knows the id. -/
def requestedKind (requested : String) (source : Option ExtensionManifest) : String :=
  extensionQualityKind
    ((source.bind (·.findQuality requested)).getD { id := trimWhite requested }) source

variable (provider : ExtensionManifest)

/-- The kind of an option of the provider. -/
def kindOf (option : QualityOption) : String :=
  extensionQualityKind option (some provider)

/-- The option with the requested id is what is asked for. -/
def answers (kind : String) (source : Option ExtensionManifest) (exact : QualityOption) : Bool :=
  source.any (·.name = provider.name) || (kind ≠ "" && kind = provider.kindOf exact) ||
    (kind = "" && provider.kindOf exact ≠ "spatial")

/-- The option with the requested id, if it is what is asked for. -/
def answering? (requested : String) (source : Option ExtensionManifest) : Option QualityOption :=
  (provider.findQuality requested).filter (provider.answers (requestedKind requested source) source)

/-- An option that has an id and is of a kind. -/
def isCandidate (allowed : String) (candidate : QualityOption) : Bool :=
  trimWhite candidate.id ≠ "" && provider.kindOf candidate = allowed

/-- The first option of the first kind that is there. -/
def candidate? (kind : String) : Option QualityOption :=
  (allowedKinds kind).findSome? fun allowed =>
    provider.qualityOptions.find? (provider.isCandidate allowed)

def resolveDownloadQuality (requested : String) (source : Option ExtensionManifest) :
    Except NoQuality String :=
  if provider.qualityOptions.isEmpty then .ok (trimWhite requested)
  else
    let kind := requestedKind requested source
    match provider.answering? requested source with
    | some exact => .ok (trimWhite exact.id)
    | none =>
      match provider.candidate? kind with
      | some candidate => .ok (trimWhite candidate.id)
      | none =>
        .error ⟨provider.name, if kind = "" then "lossless" else kind, trimWhite requested⟩

/-! ## What is promised -/

/-- A kind does not fall below the one that was requested. -/
def Compatible (requested found : String) : Prop :=
  if requested = "" then found ≠ "spatial" else found ∈ allowedKinds requested

instance (requested found : String) : Decidable (Compatible requested found) := by
  unfold Compatible
  infer_instance

/-- What is returned names an option of the provider that is no downgrade (the requested one,
where the source is the provider), nothing is returned only where nothing lossless has an id, and
what is returned is returned again. -/
structure KeepsQuality (requested : String) (source : Option ExtensionManifest) : Prop where
  shown : provider.qualityOptions ≠ [] →
    ∀ id, provider.resolveDownloadQuality requested source = .ok id →
      ∃ option, provider.findQuality id = some option ∧
        if source.any (·.name = provider.name) = true ∧ (provider.findQuality requested).isSome then
          provider.findQuality requested = some option
        else Compatible (requestedKind requested source) (provider.kindOf option)
  refused : ∀ error, provider.resolveDownloadQuality requested source = .error error →
    ∀ option ∈ provider.qualityOptions, provider.isCandidate "lossless" option = false
  again : ∀ id, provider.resolveDownloadQuality requested source = .ok id →
    provider.resolveDownloadQuality id (some provider) = .ok id

/-- Where no option answers by its id, the first option before the chosen one that goes by the
same id, if there is one, has the same text for it and a kind that answers as well. -/
def Unshadowed (requested : String) (source : Option ExtensionManifest) : Prop :=
  provider.answering? requested source = none →
    ∀ candidate ∈ provider.candidate? (requestedKind requested source),
      ∀ earlier ∈ (provider.qualityOptions.takeWhile (· ≠ candidate)).find?
          (hasId (trimWhite candidate.id)),
        trimWhite earlier.id = trimWhite candidate.id ∧
          Compatible (requestedKind requested source) (provider.kindOf earlier)


/-! ## Options by their ids -/

theorem eqIgnoreAsciiCase_iff {text other : String} : eqIgnoreAsciiCase text other = true ↔
    text.toList.map Char.toLower = other.toList.map Char.toLower :=
  decide_eq_true_iff

theorem hasId_self (option : QualityOption) : hasId (trimWhite option.id) option = true :=
  eqIgnoreAsciiCase_iff.mpr rfl

variable {option : QualityOption}

theorem hasId_congr {requested : String}
    (same : hasId requested option = true) : hasId (trimWhite option.id) = hasId requested := by
  funext other
  unfold hasId at same ⊢
  rw [Bool.eq_iff_iff, eqIgnoreAsciiCase_iff, eqIgnoreAsciiCase_iff, eqIgnoreAsciiCase_iff.mp same]

theorem nonblank_of_hasId {requested : String}
    (same : hasId requested option = true) (some : requested ≠ "") : trimWhite option.id ≠ "" := by
  intro blank
  have lowered := eqIgnoreAsciiCase_iff.mp same
  rw [blank] at lowered
  have none : requested.toList = [] := List.map_eq_nil_iff.mp lowered.symm
  exact some (String.toList_eq_nil_iff.mp none)

variable {provider : ExtensionManifest} {requested : String} {source : Option ExtensionManifest}

theorem findQuality_trim (option : QualityOption) (some : trimWhite option.id ≠ "") :
    provider.findQuality (trimWhite option.id) =
      provider.qualityOptions.find? (hasId (trimWhite option.id)) := by
  unfold findQuality
  rw [trimWhite_trimWhite, if_neg some]

/-- An option that is found is found again by its own id. -/
theorem findQuality_again (found : provider.findQuality requested = some option) :
    provider.findQuality (trimWhite option.id) = some option := by
  unfold findQuality at found
  split at found
  next => cases found
  next nonblank =>
    have same := List.find?_some found
    rw [findQuality_trim option (nonblank_of_hasId same nonblank), hasId_congr same]
    exact found

/-- What the provider's own manifest asks for is returned. -/
theorem resolve_own (found : provider.findQuality requested = some option) :
    provider.resolveDownloadQuality requested (some provider) = .ok (trimWhite option.id) := by
  have exact : provider.answering? requested (some provider) = some option := by
    unfold answering?
    rw [found]
    refine Option.filter_some_pos ?_
    simp [answers]
  have nonempty : provider.qualityOptions.isEmpty = false := by
    rw [List.isEmpty_eq_false_iff]
    intro none
    unfold findQuality at found
    rw [none, List.find?_nil, ite_self] at found
    cases found
  unfold resolveDownloadQuality
  rw [nonempty, if_neg Bool.false_ne_true, exact]

/-! ## The candidate -/

variable {kind : String} {candidate : QualityOption}

theorem candidate_spec (chosen : provider.candidate? kind = some candidate) :
    ∃ allowed ∈ allowedKinds kind,
      provider.qualityOptions.find? (provider.isCandidate allowed) = some candidate := by
  obtain ⟨before, allowed, behind, same, found, _⟩ := List.findSome?_eq_some_iff.mp chosen
  exact ⟨allowed, by rw [same]; simp, found⟩

theorem compatible_of_mem {found : String} (member : found ∈ allowedKinds kind) :
    Compatible kind found := by
  unfold Compatible
  split
  next none =>
    rw [none] at member
    rw [List.mem_singleton.mp member]
    decide
  next => exact member

theorem kind_mem (option : QualityOption) (manifest : Option ExtensionManifest) :
    extensionQualityKind option manifest ∈ ["lossless", "lossy", "spatial", ""] := by
  unfold extensionQualityKind
  dsimp only
  split
  next explicit =>
    simp only [List.mem_cons, List.not_mem_nil, or_false] at explicit ⊢
    obtain same | same | same := explicit
    · exact .inl same
    · exact .inr (.inl same)
    · exact .inr (.inr (.inl same))
  next =>
    repeat' split
    all_goals simp

theorem compatible_of_equal {found : String} (isKind : kind ∈ ["lossless", "lossy", "spatial", ""])
    (equal : (decide (kind ≠ "") && decide (kind = found)) = true ∨
      (decide (kind = "") && decide (found ≠ "spatial")) = true) : Compatible kind found := by
  unfold Compatible
  rw [Bool.and_eq_true_iff, Bool.and_eq_true_iff, decide_eq_true_iff, decide_eq_true_iff,
    decide_eq_true_iff, decide_eq_true_iff] at equal
  obtain ⟨known, same⟩ | ⟨unknown, other⟩ := equal
  · rw [if_neg known, ← same]
    unfold allowedKinds
    split
    next => exact List.mem_cons_self
    next other =>
      rw [not_or] at other
      simpa [known, other.1, other.2] using isKind
  · rw [if_pos unknown]
    exact other

theorem findQuality_candidate {allowed : String}
    (found : provider.qualityOptions.find? (provider.isCandidate allowed) = some candidate) :
    provider.findQuality (trimWhite candidate.id) =
      ((provider.qualityOptions.takeWhile (· ≠ candidate)).find?
        (hasId (trimWhite candidate.id))).or (some candidate) := by
  obtain ⟨accepted, before, behind, parts, refused⟩ := List.find?_eq_some_iff_append.mp found
  have others : ∀ option ∈ before, decide (option ≠ candidate) = true := by
    intro option member
    refine decide_eq_true fun same => ?_
    have other := refused option member
    rw [same, accepted] at other
    cases other
  have taken : provider.qualityOptions.takeWhile (· ≠ candidate) = before := by
    rw [parts, List.takeWhile_append_of_pos others, List.takeWhile_cons_of_neg (by simp),
      List.append_nil]
  have nonblank : trimWhite candidate.id ≠ "" := by
    unfold isCandidate at accepted
    simpa using (Bool.and_eq_true_iff.mp accepted).1
  rw [findQuality_trim candidate nonblank, taken, parts, List.find?_append,
    List.find?_cons_of_pos (hasId_self candidate)]

theorem refused_of_candidate_none (none : provider.candidate? kind = none) :
    ∀ option ∈ provider.qualityOptions, provider.isCandidate "lossless" option = false := by
  have lossless : "lossless" ∈ allowedKinds kind := by
    unfold allowedKinds
    split <;> simp
  intro option member
  have absent := List.findSome?_eq_none_iff.mp none "lossless" lossless
  simpa using List.find?_eq_none.mp absent option member

/-! ## No downgrade -/

theorem keepsQuality_of_exact {exact : QualityOption}
    (nonempty : provider.qualityOptions.isEmpty = false)
    (answered : provider.answering? requested source = some exact) :
    provider.KeepsQuality requested source := by
  obtain ⟨found, accepted⟩ := Option.filter_eq_some_iff.mp answered
  have resolved : provider.resolveDownloadQuality requested source = .ok (trimWhite exact.id) := by
    unfold resolveDownloadQuality
    rw [nonempty, if_neg Bool.false_ne_true, answered]
  refine ⟨fun _ id same => ?_, fun error same => ?_, fun id same => ?_⟩
  · rw [resolved] at same
    rw [← Except.ok.inj same]
    refine ⟨exact, findQuality_again found, ?_⟩
    split
    next => exact found
    next other =>
      refine compatible_of_equal (kind_mem _ _) ?_
      unfold answers at accepted
      rw [Bool.or_eq_true_iff, Bool.or_eq_true_iff] at accepted
      obtain (own | equal) | unknown := accepted
      · exact absurd ⟨own, by rw [found]; rfl⟩ other
      · exact .inl equal
      · exact .inr unknown
  · have other : Except.ok (trimWhite exact.id) = Except.error error := resolved.symm.trans same
    cases other
  · rw [resolved] at same
    rw [← Except.ok.inj same]
    exact resolve_own (findQuality_again found)

theorem keepsQuality_of_empty (empty : provider.qualityOptions.isEmpty = true) :
    provider.KeepsQuality requested source := by
  have resolved (requested : String) (source : Option ExtensionManifest) :
      provider.resolveDownloadQuality requested source = .ok (trimWhite requested) := by
    unfold resolveDownloadQuality
    rw [empty, if_pos rfl]
  refine ⟨fun some => absurd (List.isEmpty_iff.mp empty) some, fun error same => ?_,
    fun id same => ?_⟩
  · have other : Except.ok (trimWhite requested) = Except.error error :=
      (resolved requested source).symm.trans same
    cases other
  · rw [resolved] at same
    rw [resolved, ← Except.ok.inj same, trimWhite_trimWhite]

theorem keepsQuality_of_refused (none : provider.candidate? (requestedKind requested source) = none)
    (refused : ∀ id, provider.resolveDownloadQuality requested source ≠ .ok id) :
    provider.KeepsQuality requested source :=
  ⟨fun _ id same => absurd same (refused id), fun _ _ => refused_of_candidate_none none,
    fun id same => absurd same (refused id)⟩

theorem not_own_of_unanswered (unanswered : provider.answering? requested source = none) :
    ¬(source.any (·.name = provider.name) = true ∧ (provider.findQuality requested).isSome) := by
  rintro ⟨own, some⟩
  obtain ⟨exact, found⟩ := Option.isSome_iff_exists.mp some
  unfold answering? at unanswered
  rw [found] at unanswered
  have refused := Option.filter_eq_none_iff.mp unanswered exact rfl
  unfold answers at refused
  rw [own] at refused
  simp at refused

theorem keepsQuality_iff_of_candidate (unanswered : provider.answering? requested source = none)
    (chosen : provider.candidate? (requestedKind requested source) = some candidate)
    (resolved : provider.resolveDownloadQuality requested source = .ok (trimWhite candidate.id)) :
    provider.KeepsQuality requested source ↔ provider.Unshadowed requested source := by
  obtain ⟨allowed, isAllowed, isFirst⟩ := candidate_spec chosen
  have found := findQuality_candidate isFirst
  constructor
  · intro keeps _ other isChosen earlier isEarlier
    rw [chosen] at isChosen
    cases isChosen
    rw [Option.mem_def] at isEarlier
    rw [isEarlier, Option.some_or] at found
    have nonempty : provider.qualityOptions ≠ [] := by
      intro none
      rw [none] at isFirst
      cases isFirst
    obtain ⟨option, shown, kept⟩ := keeps.shown nonempty _ resolved
    rw [found] at shown
    rw [if_neg (not_own_of_unanswered unanswered), ← Option.some.inj shown] at kept
    have again := (keeps.again _ resolved).symm.trans (resolve_own found)
    exact ⟨(Except.ok.inj again).symm, kept⟩
  · intro unshadowed
    have kept := unshadowed unanswered candidate chosen
    obtain ⟨option, shown, sameId, compatible⟩ : ∃ option,
        provider.findQuality (trimWhite candidate.id) = some option ∧
          trimWhite option.id = trimWhite candidate.id ∧
            Compatible (requestedKind requested source) (provider.kindOf option) := by
      cases shadow : (provider.qualityOptions.takeWhile (· ≠ candidate)).find?
          (hasId (trimWhite candidate.id)) with
      | some earlier =>
        rw [shadow, Option.some_or] at found
        exact ⟨earlier, found, kept earlier shadow⟩
      | none =>
        rw [shadow, Option.none_or] at found
        have accepted := List.find?_some isFirst
        unfold isCandidate at accepted
        have kind : provider.kindOf candidate = allowed := by
          simpa using (Bool.and_eq_true_iff.mp accepted).2
        exact ⟨candidate, found, rfl, compatible_of_mem (kind ▸ isAllowed)⟩
    refine ⟨fun _ id same => ?_, fun error same => ?_, fun id same => ?_⟩
    · rw [resolved] at same
      rw [← Except.ok.inj same]
      exact ⟨option, shown, by rw [if_neg (not_own_of_unanswered unanswered)]; exact compatible⟩
    · have other : Except.ok (trimWhite candidate.id) = Except.error error :=
        resolved.symm.trans same
      cases other
    · rw [resolved] at same
      rw [← Except.ok.inj same]
      exact (resolve_own shown).trans (by rw [sameId])

end ExtensionManifest
end LosslessMusic.Quality
