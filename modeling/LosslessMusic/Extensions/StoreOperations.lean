import LosslessMusic.Extensions.StoreFiles

/-!
# Access to an extension's store

What an access does with the files and with the cache that all stores of one directory
share. The libraries for ciphers, digests and JSON are a parameter.
-/

namespace LosslessMusic.Extensions.Store

open Interruption

/-- A parsed JSON text. -/
inductive Parsed (ν : Type)
  | object (value : Map ν)
  | null
  | other

/-- The libraries a store relies on: a sealed text opens with its key and nonce, and
nothing opens with two keys. -/
structure Libraries (ν : Type) where
  /-- `Hmac<Sha256>`, of a key and a message. -/
  hmac : Bytes → Bytes → Bytes
  /-- `Sha256::digest`. -/
  sha256 : Bytes → Bytes
  /-- `Aes256Gcm::encrypt`, of a key, a nonce and a plaintext. -/
  aesEncrypt : Bytes → Bytes → Bytes → Bytes
  /-- `Aes256Gcm::decrypt`, of a key, a nonce and a ciphertext. -/
  aesDecrypt : Bytes → Bytes → Bytes → Option Bytes
  /-- `serde_json::to_vec`. -/
  toVec : Map ν → Option Bytes
  /-- `serde_json::from_slice`. -/
  fromSlice : Bytes → Option (Parsed ν)
  aesDecrypt_aesEncrypt : ∀ key nonce plaintext,
    aesDecrypt key nonce (aesEncrypt key nonce plaintext) = some plaintext
  aesDecrypt_key : ∀ key other nonce ciphertext plaintext text,
    aesDecrypt key nonce ciphertext = some plaintext →
    aesDecrypt other nonce ciphertext = some text → key = other

inductive StorageError
  | closed
  | missingKey
  | invalidPath
  | shortCiphertext
  | authentication
  | random
  | io
  | json
  | invalidObject
  deriving DecidableEq, Repr

/-- What a program over the files ends with. -/
abbrev Action (ν : Type) := Program (Request ν) Request.Answer StorageError

/-- The bytes of a text. -/
def bytesOf (text : String) : Bytes := text.toUTF8.toList

/-- `ExtensionStore`, without the handles of its files. -/
structure ExtensionStore where
  extensionId : Bytes
  masterKey : Option Bytes
  closed : Bool
  deriving DecidableEq, Repr

def validExtensionId (id : Bytes) : Bool :=
  let lowercase (byte : UInt8) := 97 ≤ byte && byte ≤ 122
  let digit (byte : UInt8) := 48 ≤ byte && byte ≤ 57
  1 ≤ id.length && id.length ≤ 128 && (id.head?.any fun byte => lowercase byte || digit byte) &&
    id.all fun byte => lowercase byte || digit byte || byte == 46 || byte == 95 || byte == 45

section Files

variable {ν : Type}

/-- A request whose failure is an I/O error. -/
def perform (asked : Request ν) : Action ν asked.Answer := Program.ask asked .io

/-- `getrandom::fill`. -/
def getRandom (count : Nat) : Action ν Bytes :=
  Program.ask (.random count : Request ν) .random

def symlinkMetadata (name : FileName) (settled : Bool) : Action ν Status :=
  perform (.identity name settled : Request ν)

/-- The cache of the store's kind is read. -/
def cached : Action ν (FileCache ν) :=
  perform (.cached : Request ν)

/-- The remembered map, unless the file or the key may have changed since. -/
def FileCache.current (cache : FileCache ν) (kind : StoreKind) (identity : Option Identity)
    (keyTag : Option Bytes) : Option (Map ν) :=
  if cache.identity ≠ identity ∨ cache.keyTag ≠ keyTag ∨
      (kind = .settings ∧ identity = none) then none
  else cache.snapshot

def fileIdentity (name : FileName) (settled : Bool) : Action ν (Option Identity) := do
  match ← symlinkMetadata name settled with
  | .absent => pure none
  | .irregular => .fails .invalidPath
  | .regular identity => pure (some identity)

def readOptional (name : FileName) : Action ν (Option Bytes) := do
  match ← fileIdentity name false with
  | none => pure none
  | some _ =>
    let data ← perform (.read name)
    pure (some data)

def atomicWrite (name : FileName) (data : Bytes) : Action ν Unit := do
  let _ ← fileIdentity name false
  perform .create
  perform (.write data)
  perform .sync
  perform (.persist name)
  let _ ← Program.attempt .syncDirectory
  pure ()

end Files

section Libraries

variable {ν : Type} (libraries : Libraries ν)

def parseObject (data : Bytes) : Except StorageError (Map ν) :=
  match libraries.fromSlice data with
  | some (.object value) => .ok value
  | some .null => .ok ∅
  | some .other => .error .invalidObject
  | none => .error .json

def derive (masterKey extensionId : Bytes) (purpose : String) : Bytes :=
  libraries.hmac masterKey
    (bytesOf "SpotiFLAC Mobile extension storage v2" ++ [0] ++ bytesOf purpose ++ [0] ++
      extensionId)

/-- `encrypt`, with the nonce that was drawn. -/
def encryptWith (plaintext key nonce : Bytes) : Bytes :=
  nonce ++ libraries.aesEncrypt key nonce plaintext

def encrypt (plaintext key : Bytes) : Action ν Bytes := do
  let nonce ← getRandom 12
  pure (encryptWith libraries plaintext key nonce)

def decrypt (ciphertext key : Bytes) : Except StorageError Bytes :=
  if ciphertext.length < 12 then .error .shortCiphertext
  else
    match libraries.aesDecrypt key (ciphertext.take 12) (ciphertext.drop 12) with
    | some plaintext => .ok plaintext
    | none => .error .authentication

namespace ExtensionStore

variable (store : ExtensionStore)

def key (kind : StoreKind) : Except StorageError Bytes :=
  match store.masterKey with
  | some masterKey => .ok (derive libraries masterKey store.extensionId kind.purpose)
  | none => .error .missingKey

def cacheTag (kind : StoreKind) : Option Bytes :=
  if kind = .storage then none
  else store.masterKey.map fun masterKey =>
    libraries.sha256 (derive libraries masterKey store.extensionId kind.purpose)

/-- The key that a salt made in an older version. -/
def legacyKey (salt : Bytes) : Bytes :=
  libraries.sha256 (store.extensionId ++ salt)

/-- A new salt is drawn and written. -/
def newSalt : Action ν Bytes := do
  let salt ← getRandom 32
  atomicWrite .salt salt
  pure salt

def legacyCredentialsKey : Action ν Bytes := do
  let salt ←
    match ← readOptional .salt with
    | some salt => if salt.length = 32 then pure salt else newSalt
    | none => newSalt
  pure (store.legacyKey libraries salt)

def migrateSettings : Action ν (Map ν) := do
  match ← readOptional .legacySettings with
  | none => pure ∅
  | some data =>
    let snapshot ← .ofExcept (parseObject libraries data)
    let key ← .ofExcept (store.key libraries .settings)
    atomicWrite .settings (← encrypt libraries data key)
    perform (.remove .legacySettings)
    pure snapshot

/-- The plaintext of a sealed file. Credentials of an older version are sealed anew. -/
def plaintext (kind : StoreKind) (data : Bytes) : Action ν Bytes := do
  let key ← .ofExcept (store.key libraries kind)
  match decrypt libraries data key with
  | .ok plaintext => pure plaintext
  | .error error =>
    if kind = .credentials then
      let legacy ← store.legacyCredentialsKey libraries
      match decrypt libraries data legacy with
      | .ok plaintext =>
        -- A text that is no object is not replaced.
        let _ ← .ofExcept (parseObject libraries plaintext)
        atomicWrite kind.filename (← encrypt libraries plaintext key)
        pure plaintext
      | .error _ => .fails error
    else .fails error

/-- The map as the files have it. -/
def load (kind : StoreKind) : Action ν (Map ν) := do
  match ← readOptional kind.filename with
  | some data =>
    if kind = .storage then .ofExcept (parseObject libraries data)
    else
      let plaintext ← store.plaintext libraries kind data
      .ofExcept (parseObject libraries plaintext)
  | none => if kind = .settings then store.migrateSettings libraries else pure ∅

/-- The map is read again, and remembered with the metadata of its file. -/
def reload (kind : StoreKind) : Action ν (Map ν) := do
  let snapshot ← store.load libraries kind
  let identity ← fileIdentity kind.filename false
  perform (.remember ⟨some snapshot, identity, store.cacheTag libraries kind⟩)
  pure snapshot

def refresh (kind : StoreKind) : Action ν (Map ν) := do
  let identity ← fileIdentity kind.filename false
  let cache ← cached
  match cache.current kind identity (store.cacheTag libraries kind) with
  | some snapshot => pure snapshot
  | none => store.reload libraries kind

/-- The text of a map replaces the file of its kind. -/
def replaceFile (kind : StoreKind) (data : Bytes) : Action ν Unit := do
  if kind = .storage then atomicWrite kind.filename data
  else
    let key ← .ofExcept (store.key libraries kind)
    atomicWrite kind.filename (← encrypt libraries data key)

/-- `mutate`, with the changed map if it has to be written. -/
def mutate (kind : StoreKind) (change : Map ν → Option (Map ν)) : Action ν Unit := do
  let snapshot ← store.refresh libraries kind
  match change snapshot with
  | none => pure ()
  | some snapshot =>
    match libraries.toVec snapshot with
    | none => .fails .json
    | some data =>
      store.replaceFile libraries kind data
      let identity ← fileIdentity kind.filename true
      perform (.remember ⟨some snapshot, identity, store.cacheTag libraries kind⟩)

end ExtensionStore

end Libraries

/-- The calls of a store. -/
inductive Operation (ν : Type)
  | get (key : String)
  | all
  | set (key : String) (value : ν)
  | remove (key : String)
  | replace (value : Map ν)

/-- What a call returns. -/
inductive Reply (ν : Type)
  | value (value : Option ν)
  | map (value : Map ν)
  | done

namespace Operation

variable {ν : Type}

/-- The changed map, if the call has to write one. -/
def change (kind : StoreKind) : Operation ν → Map ν → Option (Map ν)
  | get _, _ | all, _ => none
  | set key value, snapshot => some (snapshot.insert key value)
  -- Go credentials.remove persists even if the key did not exist.
  | remove key, snapshot =>
    if (snapshot.lookup key).isSome ∨ kind ≠ .storage then some (snapshot.erase key) else none
  | replace value, _ => some value

/-- `get`, `all`, `set`, `remove` and `replace`, of a store that is not closed. -/
def program (libraries : Libraries ν) (store : ExtensionStore) (kind : StoreKind) :
    Operation ν → Action ν (Reply ν)
  | get key => do
      let snapshot ← store.refresh libraries kind
      pure (.value (snapshot.lookup key))
  | all => do
      let snapshot ← store.refresh libraries kind
      pure (.map snapshot)
  | operation => do
      store.mutate libraries kind (operation.change kind)
      pure .done

end Operation

end LosslessMusic.Extensions.Store
