import LosslessMusic.Text
import Mathlib.Data.List.Perm.Basic

/-!
# Installed download providers

The extension manager knows the installed extensions, the order in which the
user wants download providers tried and the providers that may replace another
one. The health service keeps the last answer of every provider's status
checks, and the candidates of a download are sorted by it: online before
degraded before unknown, offline ones left out.

The manager stays as it is while one download is planned. A shut-down shows as
the failure of the check that the planner makes around every call.
-/

namespace LosslessMusic.Download

open Text

/-! ## Manifests -/

/-- The letters and digits of an extension name. -/
def isIdLetter (char : Char) : Bool :=
  ('a' ≤ char && char ≤ 'z') || ('0' ≤ char && char ≤ '9')

/-- The characters of an extension name. -/
def isIdChar (char : Char) : Bool :=
  isIdLetter char || char = '.' || char = '_' || char = '-'

def validExtensionId (id : String) : Bool :=
  1 ≤ id.length && id.length ≤ 128 && id.toList.head?.any isIdLetter && id.toList.all isIdChar

theorem toLower_of_isIdChar (char : Char) (isId : isIdChar char = true) : char.toLower = char := by
  unfold Char.toLower
  split
  next upper =>
    exfalso
    unfold isIdChar isIdLetter at isId
    simp only [Bool.or_eq_true, Bool.and_eq_true, decide_eq_true_eq, Char.le_def,
      UInt32.le_iff_toNat_le] at isId upper
    rcases isId with (((letter | digit) | dot) | line) | hyphen
    · simp at letter upper
      omega
    · simp at digit upper
      omega
    · simp [dot] at upper
    · simp [line] at upper
    · simp [hyphen] at upper
  next => rfl

theorem eq_of_eqIgnoreAsciiCase (left right : String) (validLeft : validExtensionId left = true)
    (validRight : validExtensionId right = true) (same : eqIgnoreAsciiCase left right = true) :
    left = right := by
  have lower : ∀ id : String, validExtensionId id = true →
        id.toList.map Char.toLower = id.toList := by
    intro id valid
    unfold validExtensionId at valid
    rw [Bool.and_eq_true, List.all_eq_true] at valid
    conv_rhs => rw [← List.map_id id.toList]
    exact List.map_congr_left fun char member =>
      toLower_of_isIdChar char (valid.2 char member)
  apply String.toList_injective
  rw [← lower left validLeft, ← lower right validRight]
  exact of_decide_eq_true same

/-- The part of an extension manifest that the planner reads. -/
structure ExtensionManifest where
  name : String
  valid : validExtensionId name = true
  types : List String
  stopProviderFallback : Bool
  skipBuiltInFallback : Bool
  /-- The names of the declared status checks. -/
  serviceHealth : List String
  /-- The texts listed under the capability `replacesBuiltInProviders`. -/
  replacesBuiltInProviders : List String
  deriving DecidableEq

namespace ExtensionManifest

def hasType (manifest : ExtensionManifest) (kind : String) : Bool :=
  manifest.types.any (· = kind)

def stopsProviderFallback (manifest : ExtensionManifest) : Bool :=
  manifest.stopProviderFallback || manifest.skipBuiltInFallback

end ExtensionManifest

/-- An installed extension. -/
structure Installed where
  manifest : ExtensionManifest
  enabled : Bool
  error : String
  deriving DecidableEq

/-! ## Priorities -/

/-- The names of the providers the application once shipped itself. -/
def legacyProviders : List String :=
  ["deezer", "qobuz", "tidal"]

/-- The order of download providers that `set_provider_priority` keeps of a list:
`seen` holds the lower-case names kept so far. -/
def keptPriority (enabled : List String) : List String → List String → List String
  | _, [] => []
  | seen, raw :: rest =>
    let id := trimWhite raw
    let normalized := lowercase id
    if id = "" ∨ (normalized ∈ legacyProviders ∧ normalized ∉ enabled) then
      keptPriority enabled seen rest
    else if normalized ∈ seen then
      keptPriority enabled seen rest
    else
      id :: keptPriority enabled (normalized :: seen) rest

theorem keptPriority_trimmed (enabled seen ids : List String) :
    ∀ id ∈ keptPriority enabled seen ids, trimWhite id = id := by
  induction ids generalizing seen with
  | nil => intro id member; cases member
  | cons raw rest ih =>
    intro id member
    rw [keptPriority] at member
    split at member
    · exact ih seen id member
    · split at member
      · exact ih seen id member
      · rcases List.mem_cons.mp member with here | later
        · rw [here]
          exact trimWhite_trimWhite raw
        · exact ih _ id later

theorem keptPriority_unseen (enabled seen ids : List String) :
    ∀ id ∈ keptPriority enabled seen ids, lowercase id ∉ seen := by
  induction ids generalizing seen with
  | nil => intro id member; cases member
  | cons raw rest ih =>
    intro id member
    rw [keptPriority] at member
    split at member
    · exact ih seen id member
    · split at member
      · exact ih seen id member
      · rename_i fresh
        rcases List.mem_cons.mp member with here | later
        · rw [here]
          exact fresh
        · intro isSeen
          exact ih _ id later (List.mem_cons_of_mem _ isSeen)

theorem keptPriority_distinct (enabled seen ids : List String) :
    (keptPriority enabled seen ids).Nodup := by
  induction ids generalizing seen with
  | nil => exact List.nodup_nil
  | cons raw rest ih =>
    rw [keptPriority]
    split
    · exact ih seen
    · split
      · exact ih seen
      · refine List.nodup_cons.mpr ⟨?_, ih _⟩
        intro again
        exact keptPriority_unseen enabled _ rest _ again List.mem_cons_self

/-- An order of download providers: trimmed names, none of them twice. -/
structure DownloadPriority where
  ids : List String
  trimmed : ∀ id ∈ ids, trimWhite id = id
  distinct : ids.Nodup

/-- The extension manager. -/
structure ExtensionManager where
  entries : List Installed
  priority : DownloadPriority
  fallback : Option (List String)
  metadataRevision : Nat

namespace ExtensionManager

def get (manager : ExtensionManager) (id : String) : Option Installed :=
  manager.entries.find? (·.manifest.name = id)

/-- `provider_ids` for download providers. -/
def downloadProviderIds (manager : ExtensionManager) : List String :=
  (manager.entries.filter fun entry =>
      entry.manifest.hasType "download_provider" && entry.enabled && entry.error = "").map
    (·.manifest.name)

/-- `set_provider_priority` for downloads. -/
def setProviderPriority (manager : ExtensionManager) (ids : List String) :
    ExtensionManager :=
  let enabled := manager.downloadProviderIds.map fun id => lowercase (trimWhite id)
  { manager with
    priority :=
      { ids := keptPriority enabled [] ids
        trimmed := keptPriority_trimmed enabled [] ids
        distinct := keptPriority_distinct enabled [] ids } }

def fallbackAllowed (manager : ExtensionManager) (id : String) : Bool :=
  match manager.fallback with
  | none => true
  | some ids => ids.any (· = id)

def downloadManifest (manager : ExtensionManager) (id : String) :
    Option ExtensionManifest :=
  match manager.get id with
  | none => none
  | some entry =>
    if !entry.enabled || entry.error ≠ "" then none else some entry.manifest

/-- The manifest of `id` when it is an available download provider. -/
def downloadProvider (manager : ExtensionManager) (id : String) :
    Option ExtensionManifest :=
  (manager.downloadManifest id).filter (·.hasType "download_provider")

theorem name_of_downloadProvider (manager : ExtensionManager) (id : String)
    (manifest : ExtensionManifest) (available : manager.downloadProvider id = some manifest) :
    manifest.name = id := by
  unfold downloadProvider downloadManifest at available
  cases found : manager.get id with
  | none => simp [found] at available
  | some entry =>
    have named : entry.manifest.name = id := by
      have := List.find?_some found
      exact of_decide_eq_true this
    rw [found] at available
    simp only [Option.filter_eq_some_iff] at available
    obtain ⟨shown, _⟩ := available
    split at shown
    · cases shown
    · cases shown
      exact named

def healthManifest (manager : ExtensionManager) (id : String) :
    Option ExtensionManifest :=
  (manager.get id).map (·.manifest)

end ExtensionManager

/-! ## Health -/

/-- The outcome of a provider's status checks. -/
inductive HealthStatus
  | online
  | degraded
  | unknown
  | offline
  deriving DecidableEq

/-- A remembered status, of the extensions as they were at `revision`. -/
structure Cached where
  revision : Nat
  status : HealthStatus
  expires : Nat

/-- The health service at the moment the candidates are sorted. -/
structure Health where
  closed : Bool
  now : Nat
  entries : String → Option Cached

/-- The extension manager with its health service. A status of the present
revision is only remembered for an installed extension that declares checks. -/
structure Backend where
  manager : ExtensionManager
  health : Health
  checked : ∀ id cached, health.entries id = some cached →
      cached.revision = manager.metadataRevision →
      ∃ manifest, manager.healthManifest id = some manifest ∧ manifest.serviceHealth ≠ []

namespace Backend

/-- `fallback_status`; the refresh it starts does not change the answer. -/
def fallbackStatus (backend : Backend) (id : String) : HealthStatus :=
  match backend.manager.healthManifest id with
  | none => .unknown
  | some manifest =>
    if manifest.serviceHealth.isEmpty then .unknown
    else if backend.health.closed then .unknown
    else
      match (backend.health.entries id).filter
          (·.revision = backend.manager.metadataRevision) with
      | none => .unknown
      | some cached =>
        if backend.health.now < cached.expires then cached.status
        else if cached.status ≠ .offline then cached.status
        else .unknown

/-- The status by which a candidate is sorted. -/
def sortingStatus (backend : Backend) (kept id : String) : HealthStatus :=
  if eqIgnoreAsciiCase id kept || !backend.manager.fallbackAllowed id ||
      (backend.manager.downloadProvider id).isNone then
    .unknown
  else
    backend.fallbackStatus id

/-- The group of candidates a status belongs to; an offline one is left out. -/
def groupOf : HealthStatus → Option Nat
  | .online => some 0
  | .degraded => some 1
  | .offline => none
  | .unknown => some 2

def prioritizeHealthyDownloads (backend : Backend) (priority : List String)
    (kept selected : String) : List String :=
  let ids := (priority.map trimWhite).filter (· ≠ "")
  let group := fun index =>
    ids.filter fun id => groupOf (backend.sortingStatus kept id) = some index
  let ordered := group 0 ++ group 1 ++ group 2
  match ordered.findIdx? (eqIgnoreAsciiCase · selected) with
  | none => ordered
  | some index => (ordered[index]?).toList ++ ordered.eraseIdx index

/-- The unexpired record of the present revision says that `id` is offline. -/
def IsOffline (backend : Backend) (id : String) : Prop :=
  backend.health.closed = false ∧ ∃ cached, backend.health.entries id = some cached ∧
      cached.revision = backend.manager.metadataRevision ∧
      backend.health.now < cached.expires ∧ cached.status = .offline

theorem count_filter_eq (keep : String → Bool) (ids : List String) (id : String) :
    (ids.filter keep).count id = if keep id = true then ids.count id else 0 := by
  by_cases kept : keep id = true
  · rw [if_pos kept, List.count_filter kept]
  · rw [if_neg kept, List.count_eq_zero]
    intro member
    exact kept (List.mem_filter.mp member).2

theorem moveToFront_perm (ordered : List String) (test : String → Bool) :
    (match ordered.findIdx? test with
      | none => ordered
      | some index => (ordered[index]?).toList ++ ordered.eraseIdx index).Perm ordered := by
  cases found : ordered.findIdx? test with
  | none => exact List.Perm.refl ordered
  | some index =>
    have within : index < ordered.length := by
      have := List.findIdx?_eq_some_iff_getElem.mp found
      exact this.1
    change ((ordered[index]?).toList ++ ordered.eraseIdx index).Perm ordered
    rw [List.getElem?_eq_getElem within]
    exact List.getElem_cons_eraseIdx_perm within

theorem head?_moveToFront (ordered : List String) (test : String → Bool) (first : String)
    (found : ordered.find? test = some first) :
    (match ordered.findIdx? test with
      | none => ordered
      | some index => (ordered[index]?).toList ++ ordered.eraseIdx index).head? =
        some first := by
  obtain ⟨passes, index, within, isFirst, before⟩ := List.find?_eq_some_iff_getElem.mp found
  have place : ordered.findIdx? test = some index := by
    rw [List.findIdx?_eq_some_iff_getElem]
    refine ⟨within, by rw [isFirst]; exact passes, ?_⟩
    intro earlier less
    simpa using before earlier less
  rw [place]
  simp [within, isFirst]

theorem prioritizeHealthyDownloads_perm (backend : Backend) (priority : List String)
    (kept selected : String) :
    (backend.prioritizeHealthyDownloads priority kept selected).Perm
      (((priority.map trimWhite).filter (· ≠ "")).filter fun id =>
        (groupOf (backend.sortingStatus kept id)).isSome) := by
  refine (moveToFront_perm _ (eqIgnoreAsciiCase · selected)).trans ?_
  rw [List.perm_iff_count]
  intro id
  simp only [List.count_append, count_filter_eq _ ((priority.map trimWhite).filter _)]
  cases backend.sortingStatus kept id <;> simp [groupOf]

theorem head?_prioritizeHealthyDownloads (backend : Backend) (priority : List String)
    (selected first : String)
    (isFirst : ((priority.map trimWhite).filter (· ≠ "")).find? (eqIgnoreAsciiCase · selected) =
        some first) :
    (backend.prioritizeHealthyDownloads priority selected selected).head? = some first := by
  refine head?_moveToFront _ _ first ?_
  have keptUnknown : ∀ id, eqIgnoreAsciiCase id selected = true →
        groupOf (backend.sortingStatus selected id) = some 2 := by
    intro id same
    unfold sortingStatus
    rw [same, Bool.true_or, Bool.true_or, if_pos rfl]
    rfl
  have other : ∀ index, index ≠ 2 → (((priority.map trimWhite).filter (· ≠ "")).filter fun id =>
          groupOf (backend.sortingStatus selected id) = some index).find?
            (eqIgnoreAsciiCase · selected) = none := by
    intro index different
    rw [List.find?_eq_none]
    intro id member same
    have grouped := of_decide_eq_true (List.mem_filter.mp member).2
    rw [keptUnknown id same] at grouped
    exact different (Option.some.inj grouped).symm
  rw [List.find?_append, List.find?_append, other 0 (by decide), other 1 (by decide),
    Option.none_or, Option.none_or, List.find?_filter, ← isFirst]
  congr 1
  funext id
  cases same : eqIgnoreAsciiCase id selected with
  | false => simp
  | true => simp [keptUnknown id same]

theorem fallbackStatus_of_isOffline (backend : Backend) (id : String)
    (offline : backend.IsOffline id) : backend.fallbackStatus id = .offline := by
  obtain ⟨opened, cached, found, current, unexpired, isOffline⟩ := offline
  obtain ⟨manifest, installed, declared⟩ := backend.checked id cached found current
  have live : (backend.health.entries id).filter
        (·.revision = backend.manager.metadataRevision) = some cached := by
    rw [found, Option.filter_some, if_pos (by simpa using current)]
  simp [fallbackStatus, installed, declared, opened, live, unexpired, isOffline]

end Backend
end LosslessMusic.Download
