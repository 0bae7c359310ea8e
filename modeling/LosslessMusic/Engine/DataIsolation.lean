import LosslessMusic.Storage.Disk
import LosslessMusic.Text
import LosslessMusic.Transition.Machine

/-!
# The copy of the Go-era directories

`EngineDataIsolation.ensureRustCopy` in the directory that holds the Go-era directories,
one file operation a step. An operation may fail, and between two of them the process may
be killed. Other programs write while no call is in progress: the Go engine its own
directories, the Rust engine the copy.
-/

namespace LosslessMusic.Engine.Isolation

open Storage (Disk Entry)

universe u

/-- `ROOT_NAME`. -/
def rootName : String := "engine-rust"

/-- `TMP_PREFIX`. -/
def tmpPrefix : String := "engine-rust.tmp-"

/-- `startsWith(TMP_PREFIX)`. -/
def isTmp (name : String) : Bool :=
  Text.startsWith name tmpPrefix

/-- The names of the Go-era directories. The app calls them `extensions` and `ext_data`. -/
structure Layout where
  extensions : String
  data : String
  distinct : extensions ≠ data
  extensionsApart : extensions ≠ rootName ∧ isTmp extensions = false
  dataApart : data ≠ rootName ∧ isTmp data = false

/-- The two directories, in the order in which they are copied. -/
inductive Side
  | extensions
  | data
  deriving DecidableEq, Repr

/-- The name of a directory. -/
def Layout.name (layout : Layout) : Side → String
  | .extensions => layout.extensions
  | .data => layout.data

/-- Where a call of `ensureRustCopy` is. -/
inductive Step
  /-- Before the leftovers of earlier calls are deleted. -/
  | sweeping
  /-- Before `root.isDirectory`. -/
  | checking
  /-- Before `copyOrCreate`. -/
  | entering (side : Side) (staging : String)
  /-- In `copyRecursively`, with the walk that is left. -/
  | copying (side : Side) (staging : String) (todo : List (List String))
  /-- Before `renameTo`. -/
  | publishing (staging : String)
  /-- In `finally`, with or without an exception. -/
  | cleaning (staging : String) (thrown : Bool)
  /-- Before the last `mkdirs` of a directory. -/
  | creating (side : Side)
  deriving DecidableEq, Repr

/-- A call, with the directories that its copy has missed because `mkdirs` has failed, and
whether the operations outside the copy whose results are ignored have succeeded. -/
structure Call where
  step : Step
  missed : List (List String)
  clean : Bool
  deriving DecidableEq, Repr

/-- How a call has ended. -/
inductive Ending
  | returned (clean : Bool)
  | thrown
  | killed
  deriving DecidableEq, Repr

/-- The disk and the call in progress. The last three fields are a record: how the last
call has ended, what is to be below the root (as copied, and as the engine has written it
since), and the directories that the published copy has missed. -/
structure World (κ : Type u) where
  disk : Disk String κ
  call : Option Call
  ending : Option Ending
  copy : List String → Option (Entry κ)
  missed : List (List String)

/-- What the system answers in one step of a call: whether an operation throws, the entries
that a deletion leaves, the random name, the order of a walk, the depth that `mkdirs` gets
to, and what a failing copy of a file leaves. -/
structure Answer (κ : Type u) where
  fails : Bool
  spared : List (List String)
  uuid : String
  order : List (List String)
  upTo : Nat
  written : Option κ

/-- A call that begins, a step of it, the end of the process, or a write of another
program. -/
inductive Event (κ : Type u)
  | begin
  | call (answer : Answer κ)
  | kill
  | write (path : List String) (value : Option (Entry κ))

/-- The steps of other programs. -/
def Event.isWrite {κ : Type u} : Event κ → Bool
  | .write _ _ => true
  | .begin | .call _ | .kill => false

variable {κ : Type u} (layout : Layout)

/-- What a complete copy of the two directories holds. A directory that is not there is
copied as an empty one. -/
def Layout.expected (disk : Disk String κ) : List String → Option (Entry κ)
  | [] => some .directory
  | name :: rest =>
    if name = layout.extensions || name = layout.data then
      if disk.isDirectory [name] then disk.entry (name :: rest)
      else if rest.isEmpty then some .directory else none
    else none

namespace World

variable (w : World κ)

/-- The call goes on. -/
def goOn (disk : Disk String κ) (call : Call) : World κ :=
  { w with disk, call := some call }

/-- The call ends. -/
def endCall (disk : Disk String κ) (ending : Ending) : World κ :=
  { w with disk, call := none, ending := some ending }

/-- The entries of a name, but for those that are spared. -/
def deletes (names : String → Bool) (spared : List (List String)) (path : List String) : Bool :=
  path.head?.any names && !spared.contains path

/-- What follows the copy of a directory. -/
def onward (staging : String) : Side → Step
  | .extensions => .entering .data staging
  | .data => .publishing staging

/-- `copyOrCreate` up to its walk. -/
def enter (call : Call) (side : Side) (staging : String) (answer : Answer κ) : Option (World κ) :=
  if w.disk.isDirectory [layout.name side] then
    if answer.fails then some (w.goOn w.disk { call with step := .cleaning staging true })
    else if w.disk.isWalk [layout.name side] answer.order then
      some (w.goOn w.disk { call with step := .copying side staging answer.order })
    else none
  else
    let target := [staging, layout.name side]
    let disk := w.disk.mkdirs target answer.upTo
    if w.disk.reaches target answer.upTo && (w.disk.entry target).isNone then
      some (w.goOn disk { call with step := onward staging side })
    else some (w.goOn disk { call with step := .cleaning staging true })

/-- `copyRecursively` at one entry of the walk. -/
def copyEntry (call : Call) (side : Side) (staging : String) (rest : List String)
    (todo : List (List String)) (answer : Answer κ) : World κ :=
  let target := staging :: layout.name side :: rest
  let throws (disk : Disk String κ) := w.goOn disk { call with step := .cleaning staging true }
  match w.disk.entry (layout.name side :: rest), w.disk.entry target with
  | none, _ => throws w.disk
  | some .directory, some (.file _) => throws w.disk
  | some .directory, _ =>
    if answer.fails then throws w.disk
    else
      w.goOn (w.disk.mkdirs target answer.upTo)
        { call with
          step := .copying side staging todo
          missed := if w.disk.reaches target answer.upTo then call.missed
            else (layout.name side :: rest) :: call.missed }
  | some (.file _), some _ => throws w.disk
  | some (.file content), none =>
    let disk := w.disk.mkdirs target.dropLast answer.upTo
    if !disk.isDirectory target.dropLast then throws disk
    else if answer.fails then throws (disk.put target (answer.written.map .file))
    else w.goOn (disk.put target (some (.file content)))
      { call with step := .copying side staging todo }

/-- `renameTo` and the check behind it. -/
def publish (call : Call) (staging : String) (answer : Answer κ) : World κ :=
  if !answer.fails && (w.disk.entry [staging]).isSome && (w.disk.entry [rootName]).isNone then
    { w.goOn (w.disk.rename staging rootName) { call with step := .creating .extensions } with
      copy := layout.expected w.disk
      missed := call.missed }
  else
    w.goOn w.disk { call with step := .cleaning staging (!w.disk.isDirectory [rootName]) }

/-- One step of a call. -/
def act (call : Call) (answer : Answer κ) : Option (World κ) :=
  match call.step with
  | .sweeping =>
    some (w.goOn (w.disk.remove (deletes isTmp answer.spared))
      { call with step := .checking, clean := call.clean && answer.spared.isEmpty })
  | .checking =>
    let staging := tmpPrefix ++ answer.uuid
    if w.disk.isDirectory [rootName] then
      some (w.goOn w.disk { call with step := .creating .extensions })
    else if w.disk.paths.all fun path =>
        path.head? ≠ some staging || (w.disk.entry path).isNone then
      some (w.goOn w.disk { call with step := .entering .extensions staging })
    else none
  | .entering side staging => w.enter layout call side staging answer
  | .copying side staging [] => some (w.goOn w.disk { call with step := onward staging side })
  | .copying side staging (rest :: todo) =>
    some (w.copyEntry layout call side staging rest todo answer)
  | .publishing staging => some (w.publish layout call staging answer)
  | .cleaning staging thrown =>
    let disk := w.disk.remove (deletes (· = staging) answer.spared)
    if thrown then some (w.endCall disk .thrown)
    else
      some (w.goOn disk
        { call with step := .creating .extensions, clean := call.clean && answer.spared.isEmpty })
  | .creating side =>
    let target := [rootName, layout.name side]
    let disk := w.disk.mkdirs target answer.upTo
    let clean := call.clean && w.disk.reaches target answer.upTo
    match side with
    | .extensions => some (w.goOn disk { call with step := .creating .data, clean })
    | .data => some (w.endCall disk (.returned clean))

/-- Where other programs write: not in a staging directory, and below the root only when
there is one. -/
def writable (path : List String) : Bool :=
  match path with
  | [] => false
  | name :: rest =>
    !isTmp name && (name ≠ rootName || !rest.isEmpty && w.disk.isDirectory [rootName])

/-- A program writes. -/
def write (path : List String) (value : Option (Entry κ)) : World κ :=
  { w with
    disk := w.disk.put path value
    copy := if path.head? = some rootName then Function.update w.copy path.tail value else w.copy }

/-- One step. -/
def step (w : World κ) : Event κ → Option (World κ)
  | .begin =>
    if w.call.isNone then some { w with call := some ⟨.sweeping, [], true⟩ } else none
  | .call answer => w.call.bind fun call => w.act layout call answer
  | .kill => w.call.map fun _ => w.endCall w.disk .killed
  | .write path value =>
    if w.call.isNone && w.writable path then some (w.write path value) else none

/-- A disk without a copy, with whatever earlier calls have left. -/
structure Begins (w : World κ) : Prop where
  noCall : w.call = none
  noRoot : w.disk.isDirectory [rootName] = false
  noCopy : ∀ rest, rest ≠ [] → w.disk.entry (rootName :: rest) = none

/-- The machine of the calls. -/
def machine : Transition.Machine (World κ) (Event κ) where
  Start := Begins
  step := step layout

end World

end LosslessMusic.Engine.Isolation
