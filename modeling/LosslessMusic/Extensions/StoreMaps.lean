import LosslessMusic.Extensions.StoreOperations

/-!
# The maps that the files of a store stand for

A store is there to keep three maps. The files stand for a map whoever could read it:
what is sealed has been sealed with one key, and settings of an older version count as
long as they were not taken over.
-/

namespace LosslessMusic.Extensions.Store

open Interruption

section Meaning

variable {ν : Type} (libraries : Libraries ν)

open Classical in

/-- What a sealed file says to whoever has its key. -/
noncomputable def opened (data : Bytes) : Option Bytes :=
  if key : ∃ plaintext key, decrypt libraries data key = .ok plaintext then some key.choose
  else none

/-- The map of a plain text. -/
def objectOf (data : Bytes) : Option (Map ν) :=
  (parseObject libraries data).toOption

/-- The map of a file of some kind. -/
noncomputable def contents (kind : StoreKind) (data : Bytes) : Option (Map ν) :=
  if kind = .storage then objectOf libraries data
  else (opened libraries data).bind (objectOf libraries)

/-- The map of settings of an older version. -/
def legacySettings (disk : FileName → Option Stored) : Option (Map ν) :=
  match disk .legacySettings with
  | some (.regular data _ _) => objectOf libraries data
  | some .irregular => none
  | none => some ∅

/-- The map that the files stand for, if they are readable at all. -/
noncomputable def meaning (disk : FileName → Option Stored) (kind : StoreKind) : Option (Map ν) :=
  match disk kind.filename with
  | some (.regular data _ _) => contents libraries kind data
  | some .irregular => none
  | none => if kind = .settings then legacySettings libraries disk else some ∅

variable {libraries} {data key plaintext : Bytes}

theorem decrypt_encryptWith {nonce : Bytes} (drawn : nonce.length = 12) :
    decrypt libraries (encryptWith libraries plaintext key nonce) key = .ok plaintext := by
  have long : ¬ (encryptWith libraries plaintext key nonce).length < 12 := by
    unfold encryptWith
    rw [List.length_append]
    omega
  unfold decrypt
  rw [if_neg long]
  unfold encryptWith
  rw [← drawn, List.take_left', List.drop_left', libraries.aesDecrypt_aesEncrypt]
  · rfl
  · rfl

theorem decrypt_unique {other text : Bytes} (opens : decrypt libraries data key = .ok plaintext)
    (also : decrypt libraries data other = .ok text) : plaintext = text := by
  unfold decrypt at opens also
  split at opens
  next => cases opens
  next long =>
    rw [if_neg long] at also
    cases first : libraries.aesDecrypt key (data.take 12) (data.drop 12) with
    | none =>
      rw [first] at opens
      cases opens
    | some found =>
      cases second : libraries.aesDecrypt other (data.take 12) (data.drop 12) with
      | none =>
        rw [second] at also
        cases also
      | some result =>
        have same := libraries.aesDecrypt_key _ _ _ _ _ _ first second
        rw [same] at opens
        exact Except.ok.inj (opens.symm.trans also)

theorem opened_eq (opens : decrypt libraries data key = .ok plaintext) :
    opened libraries data = some plaintext := by
  unfold opened
  have found : ∃ plaintext key, decrypt libraries data key = .ok plaintext :=
    ⟨plaintext, key, opens⟩
  rw [dif_pos found]
  obtain ⟨other, also⟩ := found.choose_spec
  rw [decrypt_unique also opens]

variable {disk : FileName → Option Stored} {kind : StoreKind}

theorem contents_sealed
    (sealed : kind ≠ .storage) (opens : decrypt libraries data key = .ok plaintext) :
    contents libraries kind data = objectOf libraries plaintext := by
  unfold contents
  rw [if_neg sealed, opened_eq opens, Option.bind_some]

theorem meaning_regular {modified : Option Nat} {inode : Nat}
    (found : disk kind.filename = some (.regular data modified inode)) :
    meaning libraries disk kind = contents libraries kind data := by
  unfold meaning
  rw [found]

theorem meaning_absent (none : disk kind.filename = none) (other : kind ≠ .settings) :
    meaning libraries disk kind = some ∅ := by
  unfold meaning
  rw [none]
  exact if_neg other

theorem meaning_legacy (none : disk .settings = none) :
    meaning libraries disk .settings = legacySettings libraries disk := by
  have found : disk StoreKind.settings.filename = Option.none := none
  unfold meaning
  rw [found]
  exact if_pos rfl

/-- Where its file is there, or no older version had it elsewhere, a map is in its file. -/
theorem meaning_of_file {other : FileName → Option Stored}
    (same : disk kind.filename = other kind.filename)
    (counts : kind ≠ .settings ∨ (disk kind.filename).isSome = true) :
    meaning libraries disk kind = meaning libraries other kind := by
  unfold meaning
  rw [← same]
  cases there : disk kind.filename with
  | some stored => cases stored <;> rfl
  | none =>
    rw [there] at counts
    have elsewhere : kind ≠ .settings := counts.resolve_right Bool.false_ne_true
    simp only [if_neg elsewhere]

theorem meaning_congr {other : FileName → Option Stored}
    (same : ∀ name : FileName, name.kind = kind → disk name = other name) :
    meaning libraries disk kind = meaning libraries other kind := by
  unfold meaning
  rw [same kind.filename (kind_filename kind)]
  by_cases settings : kind = .settings
  · have legacy := same .legacySettings settings.symm
    unfold legacySettings
    rw [legacy]
  · simp only [if_neg settings]

end Meaning

namespace Operation

variable {ν : Type}

/-- What a call of a map returns and leaves. -/
def Replies : Operation ν → Map ν → Reply ν → Map ν → Prop
  | get key, map, reply, after => reply = .value (map.lookup key) ∧ after = map
  | all, map, reply, after => reply = .map map ∧ after = map
  | set key value, map, reply, after => reply = .done ∧ after = map.insert key value
  | remove key, map, reply, after => reply = .done ∧ after = map.erase key
  | replace value, _, reply, after => reply = .done ∧ after = value

/-- Whether a call may change the map. -/
def mutates : Operation ν → Bool
  | get _ | all => false
  | set _ _ | remove _ | replace _ => true

variable {operation : Operation ν} {kind : StoreKind} {map after : Map ν}

theorem replies_of_change (changes : operation.change kind map = some after) :
    operation.Replies map .done after := by
  cases operation with
  | get key => cases changes
  | all => cases changes
  | set key value =>
    cases changes
    exact ⟨rfl, rfl⟩
  | remove key =>
    simp only [change] at changes
    split at changes
    next =>
      cases changes
      exact ⟨rfl, rfl⟩
    next => cases changes
  | replace value =>
    cases changes
    exact ⟨rfl, rfl⟩

theorem replies_of_unchanged
    (mutating : operation.mutates = true) (same : operation.change kind map = none) :
    operation.Replies map .done map := by
  cases operation with
  | get key => cases mutating
  | all => cases mutating
  | set key value => cases same
  | remove key =>
    simp only [change] at same
    split at same
    next => cases same
    next absent =>
      refine ⟨rfl, ?_⟩
      have missing : map.lookup key = none := by
        cases found : map.lookup key with
        | none => rfl
        | some value => exact absurd (Or.inl (by rw [found]; rfl)) absent
      have notMember : key ∉ map := Finmap.lookup_eq_none.mp missing
      apply Finmap.ext_lookup
      intro other
      by_cases erased : other = key
      · rw [erased, Finmap.lookup_erase, missing]
      · rw [Finmap.lookup_erase_ne erased]
  | replace value => cases same

end Operation

end LosslessMusic.Extensions.Store
