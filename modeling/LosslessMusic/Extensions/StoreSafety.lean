import LosslessMusic.Extensions.StoreMaps

/-!
# What an access does to a map

Every program of a store, by what holds whenever it may be left: the map is the one
before the access, or the one the access is to leave. An access that fails left the map,
and it left the file too unless it took over what an older version had written.
-/

namespace LosslessMusic.Extensions.Store

open Interruption

variable {ν : Type}

/-- The requests about the files of one kind of store. -/
def Request.ownedBy (kind : StoreKind) : Request ν → Prop
  | .identity name _ | .read name | .persist name | .remove name => name.kind = kind
  | .random _ | .create | .write _ | .sync | .syncDirectory | .cached | .remember _ => True

/-- The metadata of a file that was changed already is read. -/
def Request.careful : Request ν → Choice → Prop
  | .identity _ true, choice => choice = .succeeded
  | _, _ => True

/-- The file system, for the programs of one kind of store. -/
def surroundings (kind : StoreKind) :
    Surroundings (Request ν) Request.Answer Choice (World ν) := ⟨effect kind⟩

/-- What a program of one kind of store meets. -/
abbrev Meets {α : Type} (kind : StoreKind) (during : World ν → Prop)
    (post : α → World ν → Prop) (failed : StorageError → World ν → Prop) :
    Action ν α → World ν → Prop :=
  Program.Meets (surroundings kind) (Request.ownedBy kind) Request.careful during post failed

/-- An assertion about the files and the cache of a kind. -/
def About (kind : StoreKind) (assertion : (FileName → Option Stored) → FileCache ν → Prop)
    (world : World ν) : Prop :=
  assertion world.disk (world.cache kind)

variable {post : Option Identity → World ν → Prop}

section Requests

variable {kind : StoreKind} {name : FileName} {world : World ν} {during : World ν → Prop}
    {failed : StorageError → World ν → Prop}

theorem meets_symlinkMetadata {post : Status → World ν → Prop}
    (own : name.kind = kind) (before : during world) (found : post (world.status name) world)
    (fails : ∀ error, failed error world) :
    Meets kind during post failed (symlinkMetadata name false) world := by
  unfold symlinkMetadata perform
  refine Program.meets_ask own before ?_ ?_
  · intro choice status _ answered
    cases choice <;> cases answered
    exact found
  · intro choice _ _
    cases choice <;> exact fails _

theorem meets_fileIdentity (own : name.kind = kind) (before : during world)
    (absent : world.disk name = none → post none world)
    (regular : ∀ data modified inode, world.disk name = some (.regular data modified inode) →
      post (some ⟨data.length, modified, inode⟩) world)
    (fails : ∀ error, failed error world) :
    Meets kind during post failed (fileIdentity name false) world := by
  apply Program.Meets.bind
  apply meets_symlinkMetadata own before _ fails
  unfold World.status
  cases there : world.disk name with
  | none => exact absent there
  | some stored =>
    cases stored with
    | irregular => exact fails _
    | regular data modified inode => exact regular data modified inode there

theorem meets_readOptional {post : Option Bytes → World ν → Prop}
    (own : name.kind = kind) (before : during world)
    (absent : world.disk name = none → post none world)
    (regular : ∀ data modified inode, world.disk name = some (.regular data modified inode) →
      post (some data) world)
    (fails : ∀ error, failed error world) :
    Meets kind during post failed (readOptional name) world := by
  apply Program.Meets.bind
  apply meets_fileIdentity own before absent _ fails
  intro data modified inode there
  apply Program.Meets.bind
  refine Program.meets_ask own before ?_ ?_
  · intro choice answered _ answers
    have read : world.data? name = some data := by
      unfold World.data?
      rw [there]
    cases choice with
    | succeeded =>
      have same : answered = data := Option.some.inj (answers.symm.trans read)
      rw [same]
      exact regular data modified inode there
    | failed | bytes _ | stamped _ _ => cases answers
  · intro choice _ _
    cases choice <;> exact fails _

/-- A new file under a name. -/
abbrev written (disk : FileName → Option Stored) (name : FileName) (data : Bytes)
    (modified : Option Nat) (inode : Nat) : FileName → Option Stored :=
  Function.update disk name (some (.regular data modified inode))

section Writing

variable {assertion after between : (FileName → Option Stored) → FileCache ν → Prop} {data : Bytes}

theorem meets_persist (file : Temporary) (own : name.kind = kind)
    (before : ∀ disk cache, assertion disk cache → between disk cache)
    (behind : ∀ disk cache, after disk cache → between disk cache)
    (replaced : ∀ disk cache modified inode, assertion disk cache →
      after (written disk name data modified inode) cache)
    (holds : About kind assertion world)
    (filled : world.temporary kind = some file) (full : file.data = data) :
    Meets kind (About kind between) (fun _ => About kind after) (fun _ => About kind assertion) (do
        perform (.persist name)
        let _ ← Program.attempt .syncDirectory
        pure ()) world := by
  apply Program.Meets.bind
  refine Program.meets_ask own (before _ _ holds) ?_ ?_
  · intro choice answered _ answers
    cases choice with
    | succeeded =>
      have renamed : About kind after (effect kind world (.persist name) .succeeded).1 := by
        simp only [effect, filled]
        have changed := replaced world.disk (world.cache kind) file.modified file.inode holds
        rw [← full] at changed
        exact changed
      apply Program.Meets.bind
      refine Program.meets_attempt trivial (behind _ _ renamed) ?_
      intro choice _
      cases choice <;> exact renamed
    | failed | bytes _ | stamped _ _ => cases answers
  · intro choice _ refused
    cases choice with
    | succeeded =>
      simp only [surroundings, effect, filled] at refused
      cases refused
    | failed | bytes _ | stamped _ _ => exact holds

theorem meets_atomicWrite (own : name.kind = kind)
    (before : ∀ disk cache, assertion disk cache → between disk cache)
    (behind : ∀ disk cache, after disk cache → between disk cache)
    (replaced : ∀ disk cache modified inode, assertion disk cache →
      after (written disk name data modified inode) cache)
    (holds : About kind assertion world) :
    Meets kind (About kind between) (fun _ => About kind after) (fun _ => About kind assertion)
      (atomicWrite name data) world := by
  have during : About kind between world := before _ _ holds
  have rest : Meets kind (About kind between) (fun _ => About kind after)
      (fun _ => About kind assertion) (do
        perform .create
        perform (.write data)
        perform .sync
        perform (.persist name)
        let _ ← Program.attempt .syncDirectory
        pure ()) world := by
    apply Program.Meets.bind
    refine Program.meets_ask trivial during ?_ (fun choice _ _ => by cases choice <;> exact holds)
    intro choice answered _ answers
    cases choice with
    | stamped modified inode =>
      apply Program.Meets.bind
      refine Program.meets_ask trivial during ?_ (fun choice _ _ => by cases choice <;> exact holds)
      intro choice answered _ answers
      cases choice with
      | stamped later _ =>
        apply Program.Meets.bind
        refine Program.meets_ask trivial during ?_
          (fun choice _ _ => by cases choice <;> exact holds)
        intro choice answered _ answers
        cases choice with
        | succeeded =>
          exact meets_persist ⟨data, later, inode⟩ own before behind replaced holds
            (by simp [surroundings, effect, World.hold]) rfl
        | failed | bytes _ | stamped _ _ => cases answers
      | failed | succeeded | bytes _ => cases answers
    | failed | succeeded | bytes _ => cases answers
  apply Program.Meets.bind
  exact meets_fileIdentity own during (fun _ => rest) (fun _ _ _ _ => rest) (fun _ => holds)

end Writing

end Requests

section Loading

variable (libraries : Libraries ν) (store : ExtensionStore) (kind : StoreKind)

/-- Files of an older version that a store takes over: plain settings, and credentials
under a key that its salt makes. -/
def Migrates (began : Option Stored) : Prop :=
  (kind = .settings ∧ began = none) ∨ (kind = .credentials ∧ ∃ salt data modified inode plaintext,
      began = some (.regular data modified inode) ∧
        decrypt libraries data (store.legacyKey libraries salt) = .ok plaintext)

/-- The file is as it was, or was of an older version. -/
def Spared (began now : Option Stored) : Prop :=
  now = began ∨ Migrates libraries store kind began

/-- The map is the one before the access, and so is what the cache remembers of it. -/
structure Settled (began : Option Stored) (before : Option (Map ν))
    (disk : FileName → Option Stored) (cache : FileCache ν) : Prop where
  map : meaning libraries disk kind = before
  snapshot : ∀ snapshot, cache.snapshot = some snapshot → before = some snapshot
  spared : Spared libraries store kind began (disk kind.filename)

/-- The file is the one that the access found. -/
structure Untouched (began : Option Stored) (before : Option (Map ν))
    (disk : FileName → Option Stored) (cache : FileCache ν) : Prop where
  map : meaning libraries disk kind = before
  snapshot : ∀ snapshot, cache.snapshot = some snapshot → before = some snapshot
  same : disk kind.filename = began

variable {libraries store kind} {began : Option Stored} {before : Option (Map ν)}
    {disk : FileName → Option Stored} {cache : FileCache ν} {world : World ν}
    {assertion : (FileName → Option Stored) → FileCache ν → Prop}

theorem Untouched.settled (untouched : Untouched libraries kind began before disk cache) :
    Settled libraries store kind began before disk cache :=
  ⟨untouched.map, untouched.snapshot, .inl untouched.same⟩

variable {failed : StorageError → World ν → Prop}

theorem meets_encrypt {plaintext key : Bytes} {during : World ν → Prop}
    {post : Bytes → World ν → Prop} (before : during world)
    (sealed : ∀ nonce : Bytes, nonce.length = 12 →
      post (encryptWith libraries plaintext key nonce) world)
    (fails : ∀ error, failed error world) :
    Meets kind during post failed (encrypt libraries plaintext key) world := by
  apply Program.Meets.bind
  refine Program.meets_ask trivial before ?_ ?_
  · intro choice nonce _ answers
    cases choice with
    | bytes drawn =>
      simp only [surroundings, effect] at answers
      split at answers
      next long =>
        cases answers
        exact sealed nonce long
      next => cases answers
    | failed | succeeded | stamped _ _ => cases answers
  · intro choice _ _
    cases choice <;> exact fails _

variable {between : (FileName → Option Stored) → FileCache ν → Prop}

theorem meets_newSalt (during : ∀ disk cache, assertion disk cache → between disk cache)
    (salted : ∀ disk cache data modified inode, assertion disk cache →
      assertion (written disk .salt data modified inode) cache)
    (holds : About .credentials assertion world) :
    Meets .credentials (About .credentials between)
      (fun _ => About .credentials assertion) (fun _ => About .credentials assertion)
      ExtensionStore.newSalt world := by
  apply Program.Meets.bind
  refine Program.meets_ask trivial (during _ _ holds) ?_
    (fun choice _ _ => by cases choice <;> exact holds)
  intro choice salt _ answers
  apply Program.Meets.bind
  have unchanged : (effect .credentials world (.random 32) choice).1 = world := by
    cases choice <;> rfl
  have still : About .credentials assertion (effect .credentials world (.random 32) choice).1 := by
    rw [unchanged]
    exact holds
  exact meets_atomicWrite rfl during during (fun disk cache => salted disk cache _) still

theorem meets_legacyCredentialsKey (libraries : Libraries ν) (store : ExtensionStore)
    (during : ∀ disk cache, assertion disk cache → between disk cache)
    (salted : ∀ disk cache data modified inode, assertion disk cache →
      assertion (written disk .salt data modified inode) cache)
    (holds : About .credentials assertion world) :
    Meets .credentials (About .credentials between)
      (fun key next => About .credentials assertion next ∧
        ∃ salt, key = store.legacyKey libraries salt)
      (fun _ => About .credentials assertion)
      (store.legacyCredentialsKey libraries) world := by
  have first : About .credentials between world := during _ _ holds
  have made : Meets .credentials (About .credentials between)
      (fun key next => About .credentials assertion next ∧
        ∃ salt, key = store.legacyKey libraries salt)
      (fun _ => About .credentials assertion)
      (do
        let salt ← ExtensionStore.newSalt
        pure (store.legacyKey libraries salt)) world := by
    apply (meets_newSalt during salted holds).andThen
    intro salt next held
    exact ⟨held, salt, rfl⟩
  apply Program.Meets.bind
  refine meets_readOptional rfl first ?_ ?_ (fun _ => holds)
  · intro _
    exact made
  · intro data modified inode _
    dsimp only
    split
    next => exact ⟨holds, data, rfl⟩
    next => exact made

theorem contents_encryptWith {plaintext key nonce : Bytes}
    (sealed : kind ≠ .storage) (drawn : nonce.length = 12) :
    contents libraries kind (encryptWith libraries plaintext key nonce) =
      objectOf libraries plaintext :=
  contents_sealed sealed (decrypt_encryptWith drawn)

theorem Untouched.salted {data : Bytes} {modified : Option Nat} {inode : Nat}
    (untouched : Untouched libraries .credentials began before disk cache) :
    Untouched libraries .credentials began before (written disk .salt data modified inode)
      cache := by
  have other : written disk .salt data modified inode .credentials = disk .credentials :=
    Function.update_of_ne (by decide) _ _
  refine ⟨?_, untouched.snapshot, other.trans untouched.same⟩
  rw [← untouched.map]
  exact meaning_of_file other (.inl (by decide))

theorem meets_plaintext {data : Bytes} {modified : Option Nat} {inode : Nat}
    (during : ∀ disk cache, Settled libraries store kind began before disk cache →
      between disk cache)
    (sealed : kind ≠ .storage) (found : began = some (.regular data modified inode))
    (holds : About kind (Untouched libraries kind began before) world) :
    Meets kind (About kind between)
      (fun plaintext next => About kind (Settled libraries store kind began before) next ∧
        before = objectOf libraries plaintext)
      (fun _ => About kind (Settled libraries store kind began before))
      (store.plaintext libraries kind data) world := by
  have settled : About kind (Settled libraries store kind began before) world :=
    Untouched.settled holds
  have map : ∀ {key plaintext : Bytes}, decrypt libraries data key = .ok plaintext →
      before = objectOf libraries plaintext := by
    intro key plaintext opens
    rw [← holds.map, meaning_regular (holds.same.trans found), contents_sealed sealed opens]
  apply Program.Meets.bind
  apply Program.meets_ofExcept _ (fun _ _ => settled)
  intro key _
  cases opens : decrypt libraries data key with
  | ok plaintext => exact ⟨settled, map opens⟩
  | error error =>
    dsimp only
    split
    next credentials =>
      subst credentials
      have legacy := meets_legacyCredentialsKey libraries store
        (fun disk cache untouched => during disk cache untouched.settled)
        (fun _ _ _ _ _ untouched => untouched.salted) holds
      refine Program.Meets.andThen (legacy.mono (fun _ held => held) (fun _ _ held => held)
        (fun _ _ held => Untouched.settled held)) ?_
      rintro key' next ⟨kept, salt, rfl⟩
      have settled' : About .credentials (Settled libraries store .credentials began before) next :=
        Untouched.settled kept
      cases old : decrypt libraries data (store.legacyKey libraries salt) with
      | error _ => exact settled'
      | ok plaintext =>
        dsimp only
        apply Program.Meets.bind
        apply Program.meets_ofExcept _ (fun _ _ => settled')
        intro object _
        apply Program.Meets.bind
        refine meets_encrypt (during _ _ settled') ?_ (fun _ => settled')
        intro nonce drawn
        refine (meets_atomicWrite (kind_filename .credentials) during during ?_ settled').andThen ?_
        · intro disk cache modified inode held
          refine ⟨?_, held.snapshot, .inr (.inr ⟨rfl, salt, data, _, _, plaintext, found, old⟩)⟩
          rw [meaning_regular (Function.update_self ..), contents_encryptWith sealed drawn]
          exact (map old).symm
        · intro _ next held
          exact ⟨held, map old⟩
    next => exact settled

/-- The new settings are on the disk, and count instead of those of the older version. -/
structure Adopted (libraries : Libraries ν) (store : ExtensionStore) (began : Option Stored)
    (before : Option (Map ν)) (disk : FileName → Option Stored) (cache : FileCache ν) :
    Prop where
  settled : Settled libraries store .settings began before disk cache
  present : (disk .settings).isSome = true

theorem Adopted.cleared (adopted : Adopted libraries store began before disk cache) :
    Settled libraries store .settings began before
      (Function.update disk .legacySettings none) cache := by
  have same : Function.update disk .legacySettings none StoreKind.settings.filename =
      disk .settings := Function.update_of_ne (by decide) _ _
  refine ⟨?_, adopted.settled.snapshot, ?_⟩
  · rw [← adopted.settled.map]
    exact (meaning_of_file same.symm (.inr adopted.present)).symm
  · rw [same]
    exact adopted.settled.spared

/-- The map that the files stand for is found, and an error leaves it. -/
abbrev MeetsMap (libraries : Libraries ν) (store : ExtensionStore) (kind : StoreKind)
    (began : Option Stored) (before : Option (Map ν))
    (between : (FileName → Option Stored) → FileCache ν → Prop) :
    Action ν (Map ν) → World ν → Prop :=
  Meets kind (About kind between)
    (fun snapshot next => About kind (Settled libraries store kind began before) next ∧
      before = some snapshot)
    (fun _ => About kind (Settled libraries store kind began before))

theorem meets_migrateSettings
    (during : ∀ disk cache, Settled libraries store .settings began before disk cache →
      between disk cache)
    (missing : began = none)
    (holds : About .settings (Untouched libraries .settings began before) world) :
    MeetsMap libraries store .settings began before between
      (store.migrateSettings libraries) world := by
  have settled : About .settings (Settled libraries store .settings began before) world :=
    Untouched.settled holds
  have first : About .settings between world := during _ _ settled
  have legacy : legacySettings libraries world.disk = before := by
    rw [← holds.map, meaning_legacy (holds.same.trans missing)]
  apply Program.Meets.bind
  refine meets_readOptional rfl first ?_ ?_ (fun _ => settled)
  · intro absent
    refine ⟨settled, ?_⟩
    rw [← legacy, legacySettings, absent]
  · intro data modified inode there
    have object : objectOf libraries data = before := by
      rw [← legacy, legacySettings, there]
    apply Program.Meets.bind
    apply Program.meets_ofExcept _ (fun _ _ => settled)
    intro snapshot parsed
    have map : before = some snapshot := by
      rw [← object, objectOf, parsed]
      rfl
    apply Program.Meets.bind
    apply Program.meets_ofExcept _ (fun _ _ => settled)
    intro key _
    apply Program.Meets.bind
    refine meets_encrypt first ?_ (fun _ => settled)
    intro nonce drawn
    have within : ∀ disk cache, Adopted libraries store began before disk cache →
        between disk cache := fun disk cache held => during disk cache held.settled
    have own : FileName.settings.kind = .settings := rfl
    refine (meets_atomicWrite own during within ?_ settled).andThen ?_
    · intro disk cache modified inode held
      have new : written disk .settings (encryptWith libraries data key nonce) modified inode
          .settings = some (.regular _ modified inode) := Function.update_self ..
      refine ⟨⟨?_, held.snapshot, .inr (.inl ⟨rfl, missing⟩)⟩, by rw [new]; rfl⟩
      rw [meaning_regular new, contents_encryptWith (by decide) drawn]
      exact object
    · intro _ next held
      apply Program.Meets.bind
      have failed : About .settings (Settled libraries store .settings began before) next :=
        held.settled
      refine Program.meets_ask rfl (during _ _ held.settled) ?_ ?_
      · intro choice _ _ answers
        cases choice with
        | succeeded =>
          simp only [surroundings, effect] at answers ⊢
          split at answers
          next => exact ⟨held.cleared, map⟩
          next => cases answers
        | failed | bytes _ | stamped _ _ => cases answers
      · intro choice _ refused
        cases choice with
        | succeeded =>
          simp only [surroundings, effect] at refused ⊢
          split at refused
          next => cases refused
          next => exact failed
        | failed | bytes _ | stamped _ _ => exact failed

theorem meets_load (during : ∀ disk cache, Settled libraries store kind began before disk cache →
      between disk cache)
    (holds : About kind (Untouched libraries kind began before) world) :
    MeetsMap libraries store kind began before between (store.load libraries kind) world := by
  have settled : About kind (Settled libraries store kind began before) world :=
    Untouched.settled holds
  have first : About kind between world := during _ _ settled
  have readable : ∀ {text : Bytes} {snapshot : Map ν}, before = objectOf libraries text →
      parseObject libraries text = .ok snapshot → before = some snapshot := by
    intro text snapshot map parsed
    rw [map, objectOf, parsed]
    rfl
  apply Program.Meets.bind
  refine meets_readOptional (kind_filename kind) first ?_ ?_ (fun _ => settled)
  · intro absent
    dsimp only
    split
    next settings =>
      subst settings
      exact meets_migrateSettings during (holds.same.symm.trans absent) holds
    next other =>
      refine ⟨settled, ?_⟩
      rw [← holds.map, meaning_absent absent other]
  · intro data modified inode there
    dsimp only
    split
    next storage =>
      apply Program.meets_ofExcept _ (fun _ _ => settled)
      intro snapshot parsed
      refine ⟨settled, readable ?_ parsed⟩
      rw [← holds.map, meaning_regular there, contents, if_pos storage]
    next sealed =>
      apply (meets_plaintext during sealed (holds.same.symm.trans there) holds).andThen
      rintro plaintext next ⟨kept, map⟩
      apply Program.meets_ofExcept _ (fun _ _ => kept)
      intro snapshot parsed
      exact ⟨kept, readable map parsed⟩

theorem meets_remember {snapshot : Map ν} {identity : Option Identity} {keyTag : Option Bytes}
    {assertion : (FileName → Option Stored) → FileCache ν → Prop} (first : About kind between world)
    (remembered : assertion world.disk ⟨some snapshot, identity, keyTag⟩) :
    Meets kind (About kind between) (fun _ => About kind assertion) failed
      (perform (.remember ⟨some snapshot, identity, keyTag⟩)) world := by
  refine Program.meets_ask trivial first ?_ (fun choice _ => nofun)
  intro choice _ _ _
  simp only [About, surroundings, effect, World.remember, Function.update_self]
  exact remembered

theorem meets_reload (during : ∀ disk cache, Settled libraries store kind began before disk cache →
      between disk cache)
    (holds : About kind (Untouched libraries kind began before) world) :
    MeetsMap libraries store kind began before between (store.reload libraries kind) world := by
  apply (meets_load during holds).andThen
  rintro snapshot next ⟨kept, map⟩
  have remembered : ∀ identity, Settled libraries store kind began before next.disk
      ⟨some snapshot, identity, store.cacheTag libraries kind⟩ := by
    intro identity
    refine ⟨kept.map, ?_, kept.spared⟩
    intro other same
    rw [← Option.some.inj same]
    exact map
  have rest : ∀ identity, MeetsMap libraries store kind began before between
      (do
        perform (.remember ⟨some snapshot, identity, store.cacheTag libraries kind⟩)
        pure snapshot) next := by
    intro identity
    apply (meets_remember (during _ _ kept) (remembered identity)).andThen
    intro _ later held
    exact ⟨held, map⟩
  apply Program.Meets.bind
  exact meets_fileIdentity (kind_filename kind) (during _ _ kept) (fun _ => rest _)
    (fun _ _ _ _ => rest _) (fun _ => kept)

theorem meets_refresh (during : ∀ disk cache, Settled libraries store kind began before disk cache →
      between disk cache)
    (holds : About kind (Untouched libraries kind began before) world) :
    MeetsMap libraries store kind began before between (store.refresh libraries kind) world := by
  have settled : About kind (Settled libraries store kind began before) world :=
    Untouched.settled holds
  have first : About kind between world := during _ _ settled
  apply Program.Meets.bind
  refine meets_fileIdentity (kind_filename kind) first ?_ ?_ (fun _ => settled)
  all_goals
    intros
    apply Program.Meets.bind
    refine Program.meets_ask trivial first ?_ (fun choice _ same => by cases same)
    intro choice cache _ answers
    have found : cache = world.cache kind := (Option.some.inj answers).symm
    subst found
    cases current : (world.cache kind).current kind _ (store.cacheTag libraries kind) with
    | none => exact meets_reload during holds
    | some snapshot =>
      refine ⟨settled, holds.snapshot snapshot ?_⟩
      unfold FileCache.current at current
      split at current
      next => cases current
      next => exact current

end Loading

section Changing

variable {libraries : Libraries ν} {store : ExtensionStore} {kind : StoreKind}
    {began : Option Stored} {before : Option (Map ν)} {world : World ν}

/-- The files stand for a map, and the cache remembers no other. -/
structure Held (libraries : Libraries ν) (kind : StoreKind) (now : Option (Map ν))
    (disk : FileName → Option Stored) (cache : FileCache ν) : Prop where
  map : meaning libraries disk kind = now
  snapshot : ∀ snapshot, cache.snapshot = some snapshot → now = some snapshot

/-- The map before a change, or the one behind it. -/
def Between (libraries : Libraries ν) (kind : StoreKind) (change : Map ν → Option (Map ν))
    (before : Option (Map ν)) (disk : FileName → Option Stored) (_ : FileCache ν) : Prop :=
  meaning libraries disk kind = before ∨ ∃ map after, before = some map ∧ change map = some after ∧
      meaning libraries disk kind = some after

/-- A changed map is on the disk. -/
def Replaced (libraries : Libraries ν) (kind : StoreKind) (after : Map ν)
    (disk : FileName → Option Stored) (_ : FileCache ν) : Prop :=
  meaning libraries disk kind = some after ∧
    ∃ data modified inode, disk kind.filename = some (.regular data modified inode)

theorem meets_settledIdentity {name : FileName}
    {during : World ν → Prop} {failed : StorageError → World ν → Prop}
    (own : name.kind = kind) (before : during world)
    (there : ∃ data modified inode, world.disk name = some (.regular data modified inode))
    (found : ∀ identity, post identity world) :
    Meets kind during post failed (fileIdentity name true) world := by
  apply Program.Meets.bind
  refine Program.meets_ask own before ?_ ?_
  · intro choice status careful answers
    have succeeded : choice = .succeeded := careful
    subst succeeded
    have same : status = world.status name := (Option.some.inj answers).symm
    subst same
    obtain ⟨data, modified, inode, there⟩ := there
    unfold World.status
    rw [there]
    exact found _
  · intro choice careful refused
    have succeeded : choice = .succeeded := careful
    subst succeeded
    cases refused

variable {change : Map ν → Option (Map ν)}

theorem meets_replaceFile {map after : Map ν} {data : Bytes}
    (found : before = some map) (changes : change map = some after)
    (reads : parseObject libraries data = .ok after)
    (settled : About kind (Settled libraries store kind began before) world) :
    Meets kind (About kind (Between libraries kind change before))
      (fun _ => About kind (Replaced libraries kind after))
      (fun _ => About kind (Settled libraries store kind began before))
      (store.replaceFile libraries kind data) world := by
  have first : ∀ disk cache, Settled libraries store kind began before disk cache →
      Between libraries kind change before disk cache := fun _ _ settled => .inl settled.map
  have last : ∀ disk cache, Replaced libraries kind after disk cache →
      Between libraries kind change before disk cache :=
    fun _ _ replaced => .inr ⟨map, after, found, changes, replaced.1⟩
  have object : objectOf libraries data = some after := by
    rw [objectOf, reads]
    rfl
  have new : ∀ {file : Bytes}, contents libraries kind file = objectOf libraries data →
      ∀ disk cache modified inode, Settled libraries store kind began before disk cache →
        Replaced libraries kind after (written disk kind.filename file modified inode) cache := by
    intro file reads disk cache modified inode _
    refine ⟨?_, file, modified, inode, Function.update_self ..⟩
    rw [meaning_regular (Function.update_self ..), reads, object]
  unfold ExtensionStore.replaceFile
  split
  next storage =>
    have plain : contents libraries kind data = objectOf libraries data := if_pos storage
    exact meets_atomicWrite (kind_filename kind) first last (new plain) settled
  next sealed =>
    apply Program.Meets.bind
    apply Program.meets_ofExcept _ (fun _ _ => settled)
    intro key _
    apply Program.Meets.bind
    refine meets_encrypt (first _ _ settled) ?_ (fun _ => settled)
    intro nonce drawn
    exact meets_atomicWrite (kind_filename kind) first last
      (new (contents_encryptWith sealed drawn)) settled

theorem meets_mutate (readsBack : ∀ map after data, before = some map → change map = some after →
      libraries.toVec after = some data → parseObject libraries data = .ok after)
    (holds : About kind (Untouched libraries kind began before) world) :
    Meets kind (About kind (Between libraries kind change before))
      (fun _ next => ∃ map, before = some map ∧
        About kind (Held libraries kind (some ((change map).getD map))) next)
      (fun _ => About kind (Settled libraries store kind began before))
      (store.mutate libraries kind change) world := by
  have during : ∀ disk cache, Settled libraries store kind began before disk cache →
      Between libraries kind change before disk cache := fun _ _ settled => .inl settled.map
  apply (meets_refresh during holds).andThen
  rintro snapshot next ⟨settled, map⟩
  cases changes : change snapshot with
  | none =>
    refine ⟨snapshot, map, ?_⟩
    rw [changes]
    exact ⟨settled.map.trans map,
      fun other cached => map.symm.trans (settled.snapshot other cached)⟩
  | some after =>
    cases text : libraries.toVec after with
    | none =>
      dsimp only
      rw [text]
      exact settled
    | some data =>
      have reads := readsBack snapshot after data map changes text
      dsimp only
      rw [text]
      apply (meets_replaceFile map changes reads settled).andThen
      rintro _ later replaced
      have then_ : About kind (Between libraries kind change before) later :=
        .inr ⟨snapshot, after, map, changes, replaced.1⟩
      apply Program.Meets.bind
      apply meets_settledIdentity (kind_filename kind) then_ replaced.2
      intro identity
      have remembered : Held libraries kind (some after) later.disk
          ⟨some after, identity, store.cacheTag libraries kind⟩ := by
        refine ⟨replaced.1, ?_⟩
        intro other same
        exact same
      apply (meets_remember then_ remembered).mono (fun _ held => held) _ (fun _ _ held => held)
      intro _ last held
      refine ⟨snapshot, map, ?_⟩
      rw [changes]
      exact held

end Changing

section Calls

variable {libraries : Libraries ν} {store : ExtensionStore} {kind : StoreKind}
    {began : Option Stored} {before : Option (Map ν)} {world : World ν}

/-- The map before a call, or the one the call leaves. -/
def Operation.Within (libraries : Libraries ν) (kind : StoreKind) (operation : Operation ν)
    (before : Option (Map ν)) (disk : FileName → Option Stored) : Prop :=
  meaning libraries disk kind = before ∨
    ∃ map reply after, before = some map ∧ operation.Replies map reply after ∧
      meaning libraries disk kind = some after

/-- What a call that may write leaves reads back from its text. -/
def Operation.ReadsBack (libraries : Libraries ν) (kind : StoreKind) (operation : Operation ν)
    (before : Option (Map ν)) : Prop :=
  ∀ map after data, before = some map → operation.change kind map = some after →
    libraries.toVec after = some data → parseObject libraries data = .ok after

/-- A call answers as a map does, and an error leaves the map. -/
abbrev MeetsCall (libraries : Libraries ν) (store : ExtensionStore) (kind : StoreKind)
    (operation : Operation ν) (began : Option Stored) (before : Option (Map ν)) :
    Action ν (Reply ν) → World ν → Prop :=
  Meets kind (fun next => operation.Within libraries kind before next.disk)
    (fun reply next => ∃ map after, before = some map ∧ operation.Replies map reply after ∧
      About kind (Held libraries kind (some after)) next)
    (fun _ => About kind (Settled libraries store kind began before))

variable {operation : Operation ν}

theorem meets_reading {reply : Map ν → Reply ν}
    (replies : ∀ map, operation.Replies map (reply map) map)
    (holds : About kind (Untouched libraries kind began before) world) :
    MeetsCall libraries store kind operation began before (do
        let snapshot ← store.refresh libraries kind
        pure (reply snapshot)) world := by
  have during : ∀ disk cache, Settled libraries store kind began before disk cache →
      meaning libraries disk kind = before := fun _ _ settled => settled.map
  apply Program.Meets.andThen ((meets_refresh during holds).mono
    (fun _ same => .inl same) (fun _ _ held => held) (fun _ _ held => held))
  rintro snapshot next ⟨settled, map⟩
  exact ⟨snapshot, snapshot, map, replies snapshot, settled.map.trans map,
    fun other cached => map.symm.trans (settled.snapshot other cached)⟩

theorem meets_changing (mutating : operation.mutates = true)
    (readsBack : operation.ReadsBack libraries kind before)
    (holds : About kind (Untouched libraries kind began before) world) :
    MeetsCall libraries store kind operation began before (do
        store.mutate libraries kind (operation.change kind)
        pure .done) world := by
  apply Program.Meets.andThen ((meets_mutate readsBack holds).mono _
    (fun _ _ held => held) (fun _ _ held => held))
  · rintro _ next ⟨map, found, held⟩
    refine ⟨map, _, found, ?_, held⟩
    cases changes : operation.change kind map with
    | none => exact Operation.replies_of_unchanged mutating changes
    | some after => exact Operation.replies_of_change changes
  · rintro next (same | ⟨map, after, found, changes, now⟩)
    · exact .inl same
    · exact .inr ⟨map, .done, after, found, Operation.replies_of_change changes, now⟩

theorem meets_program (readsBack : operation.ReadsBack libraries kind before)
    (holds : About kind (Untouched libraries kind began before) world) :
    MeetsCall libraries store kind operation began before
      (operation.program libraries store kind) world := by
  cases operation with
  | get key => exact meets_reading (fun _ => ⟨rfl, rfl⟩) holds
  | all => exact meets_reading (fun _ => ⟨rfl, rfl⟩) holds
  | set _ _ | remove _ | replace _ => exact meets_changing rfl readsBack holds

end Calls

end LosslessMusic.Extensions.Store
