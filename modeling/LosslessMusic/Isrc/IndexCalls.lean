import LosslessMusic.Isrc.IndexCache
import LosslessMusic.Transition.Machine

/-!
# Calls of the index cache

`IndexCache`: any number of checks, additions, invalidations and clearings at once, while
files come and go. A step is what a call does under one lock, or one look at the files; the
locks of builders are held from step to step. An index is always asked for by a check, whose
directory is not empty.
-/

namespace LosslessMusic.Isrc

open Storage (Table)
open Transition (Machine)

structure Builder where
  locked : Bool := false
  generation : Nat := 0
  deriving DecidableEq, Repr

/-- What a call was made for. -/
inductive Request
  | check (directory isrc : String)
  | add (directory isrc path : String)
  deriving DecidableEq, Repr

/-- The directory of a call. -/
def Request.directory : Request → String
  | check directory _ | add directory _ _ => directory

/-- Where a call is. A listing knows the files that were there when it began, and how many
there had been; a rebuild collects what was read of the files that have changed. -/
inductive Phase
  | checking
  | looked (index : Nat)
  | seeking
  | waiting (builder : Nat)
  | building (builder : Nat)
  | lookedAgain (builder index : Nat)
  | preparing (builder : Nat)
  | loading (builder generation : Nat)
  | cloning (builder generation index : Nat)
  | listing (builder generation : Nat) (previous : Table String (Nat × FileEntry))
  | walking (builder generation : Nat) (previous : Table String (Nat × FileEntry))
      (builtAt : Nat) (seen : List FileStamp) (since : Nat)
  | reading (builder generation : Nat) (previous : Table String (Nat × FileEntry))
      (builtAt : Nat) (listed : List Index.Listed) (readings : Table String Owned)
  | leaving (builder : Nat) (locked : Bool) (index : Option Nat)
  | indexed (index : Nat)
  | found (index : Nat) (path : String)
  | missing (index : Nat)
  | answered (path : String)
  | adding
  | taken (index : Nat)
  | stamped (index : Nat) (stamp : Option Index.Listed)
  | inserted (index bytes : Nat)
  | added (cached : Bool)
  | failed

/-- The builder that a call refers to. -/
def Phase.builder? : Phase → Option Nat
  | waiting builder | building builder | lookedAgain builder _ | preparing builder
  | loading builder _ | cloning builder _ _ | listing builder _ _ | walking builder _ _ _ _ _
  | reading builder _ _ _ _ _ | leaving builder _ _ => some builder
  | _ => none

/-- A call with its place. -/
structure Call where
  request : Request
  phase : Phase

/-- An index behind an `Arc`. The first and the last field record its directory, and the
entries that stale hits have taken out. -/
structure Shared where
  directory : String
  index : Index
  removed : List (Nat × Owned) := []

/-- The cache, everything its calls refer to, the files and the time. The last two fields
record all files there have been, and that a subtraction or an expectation has failed. -/
structure IndexCache where
  state : State := {}
  indexes : List Shared := []
  builders : List Builder := []
  calls : List Call := []
  files : List File := []
  now : Nat := 0
  history : List FileStamp := []
  panicked : Bool := false

/-- What happens. A call goes on with what it allocates for a text, its listing ends, one of
its readers has read a file, or one of its operations fails. -/
inductive CacheEvent
  | check (directory isrc : String)
  | add (directory isrc path : String)
  | invalidate (directory : String)
  | clear
  | advance (call : Nat) (capacity : String → Nat)
  | list (call : Nat) (listed : List Index.Listed)
  | read (call : Nat) (path : String) (capacity : Nat)
  | fail (call : Nat)
  | create (file : File)
  | delete (path : String)
  | tick (elapsed : Nat)

namespace IndexCache

variable (setting : Setting) (s : IndexCache)

/-- `stat`. -/
def stat? (path : String) : Option FileStamp :=
  (s.files.find? (·.stamp.path = path)).map File.stamp

/-- `read`; a file that is not there has no tag. -/
def tag (path : String) : String :=
  ((s.files.find? (·.stamp.path = path)).map File.tag).getD ""

/-- A text that is allocated with this capacity, or what it needs. -/
def allocated (text : String) (capacity : Nat) : Owned :=
  ⟨text, max text.utf8ByteSize capacity⟩

/-- The stamp says that the file is there and not empty. -/
def isPresent (stamp : FileStamp) : Bool :=
  !stamp.directory && stamp.size > 0

/-- The files of a directory. -/
def stampsOf (directory : String) : List FileStamp :=
  (s.files.map File.stamp).filter fun stamp => setting.within directory stamp.path

/-- `strong_count() > 0`. -/
def alive (builder : Nat) : Bool :=
  s.calls.any (·.phase.builder? = some builder)

/-- A call goes on to another place. -/
def goTo (position : Nat) (call : Call) (phase : Phase) : IndexCache :=
  { s with calls := s.calls.set position { call with phase } }

/-- A call goes on with the state that an operation leaves, which may panic. -/
def commit (position : Nat) (call : Call) (phase : Phase) : Option State → IndexCache
  | some state => { s.goTo position call phase with state }
  | none => { s with panicked := true }

/-- `cached`, and where the call goes with what was found. -/
def look (position : Nat) (call : Call) (hit : Nat → Phase) (miss : Phase) : IndexCache :=
  let (found, state) := s.state.cached call.request.directory
  { s.goTo position call (found.elim miss hit) with state }

/-- The test of `fresh`. -/
def isFresh (index : Index) : Bool :=
  s.now - index.builtAt < setting.ttl

/-- The builder of a directory is referred to or made. -/
def seek (position : Nat) (call : Call) : IndexCache :=
  let builders := s.state.builders.retain fun _ builder => s.alive builder
  match builders.get? call.request.directory with
  | some builder =>
    { s.goTo position call (.waiting builder) with state := { s.state with builders } }
  | none =>
    let builder := s.builders.length
    { s.goTo position call (.waiting builder) with
      builders := s.builders ++ [{}]
      state := { s.state with
        builders := builders.put call.request.directory builder } }

/-- The lock of a builder is set. -/
def setLocked (builder : Nat) (locked : Bool) : List Builder :=
  s.builders.modify builder fun one => { one with locked }

/-- What was listed becomes an index, which is stored unless the generation has changed. -/
def publish (position : Nat) (call : Call) (builder generation : Nat)
    (previous : Table String (Nat × FileEntry)) (builtAt : Nat)
    (listed : List Index.Listed) (readings : Table String Owned) : IndexCache :=
  let directory := call.request.directory
  let read := fun path => (readings.get? path).getD ⟨"", 0⟩
  match Index.build setting.sizes previous listed read builtAt with
  | none => { s with panicked := true }
  | some index =>
    let place := s.indexes.length
    let s := { s with indexes := s.indexes ++ [({ directory, index } : Shared)] }
    s.commit position call (.leaving builder true (some place))
      (if (s.builders[builder]?).any (·.generation = generation) then
        s.state.store setting.sizes directory place index.bytes
      else some s.state)

/-- The next step of `check`. -/
def advanceCheck (position : Nat) (call : Call) (directory isrc : String) :
    Option IndexCache :=
  match call.phase with
  | .checking =>
    some (if directory = "" || isrc = "" then s.goTo position call (.answered "")
      else s.look position call .looked .seeking)
  | .looked index =>
    (s.indexes[index]?).map fun shared =>
      s.goTo position call (if s.isFresh setting shared.index then .indexed index else .seeking)
  | .seeking => some (s.seek position call)
  | .waiting builder =>
    (s.builders[builder]?).map fun one =>
      if one.locked then s
      else
        { s.goTo position call (.building builder) with builders := s.setLocked builder true }
  | .building builder => some (s.look position call (.lookedAgain builder) (.preparing builder))
  | .lookedAgain builder index =>
    (s.indexes[index]?).map fun shared =>
      s.goTo position call
        (if s.isFresh setting shared.index then .leaving builder true (some index)
        else .preparing builder)
  | .preparing builder =>
    (s.builders[builder]?).map fun one =>
      s.goTo position call (.loading builder one.generation)
  | .loading builder generation =>
    some (s.look position call (.cloning builder generation) (.listing builder generation {}))
  | .cloning builder generation index =>
    (s.indexes[index]?).map fun shared =>
      s.goTo position call (.listing builder generation shared.index.files)
  | .listing builder generation previous =>
    some (s.goTo position call
        (.walking builder generation previous s.now (s.stampsOf setting directory)
          s.history.length))
  | .reading builder generation previous builtAt listed readings =>
    if ∀ one ∈ Index.changed previous listed, (readings.get? one.stamp.path).isSome then
      some (s.publish setting position call builder generation previous builtAt listed readings)
    else none
  | .leaving builder true index =>
    some
      { s.goTo position call (.leaving builder false index) with
        builders := s.setLocked builder false }
  | .leaving _ false index => some (s.goTo position call (index.elim .failed .indexed))
  | .indexed index =>
    (s.indexes[index]?).map fun shared =>
      s.goTo position call
        (match shared.index.entries.get? (uppercase setting.toUppercase isrc) with
        | some (_, path) => .found index path.text
        | none => .answered "")
  | .found index path =>
    some (s.goTo position call
        (if (s.stat? path).any isPresent then .answered path else .missing index))
  | .missing index =>
    (s.indexes[index]?).map fun shared =>
      let key := uppercase setting.toUppercase isrc
      { s.goTo position call (.answered "") with
        indexes := s.indexes.set index
          { shared with
            index := { shared.index with entries := shared.index.entries.erase key }
            removed := shared.removed ++ (shared.index.entries.get? key).toList } }
  | _ => none

/-- What an addition enters into the index that it has taken. -/
def insertion (index : Index) (isrc : Owned) (path : String) (stamp : Option Index.Listed) :
    Option Index :=
  (index.insertMatch setting.sizes (.copy isrc.text) (.copy path)).bind fun index =>
    match stamp with
    | none => some { index with builtAt := s.now }
    | some stamp =>
      (index.insertFile setting.sizes (.copy path) ⟨stamp.stamp, stamp.capacity, isrc⟩).map
        fun index => { index with builtAt := s.now }

/-- The next step of `add`. -/
def advanceAdd (position : Nat) (call : Call) (directory isrc path : String)
    (capacity : String → Nat) : Option IndexCache :=
  match call.phase with
  | .adding =>
    some (if directory = "" || isrc = "" || path = "" then s.goTo position call (.added false)
      else s.look position call .taken (.added false))
  | .taken index =>
    some (s.goTo position call (.stamped index ((s.stat? path).map fun stamp =>
          ⟨stamp, (allocated stamp.path (capacity stamp.path)).capacity⟩)))
  | .stamped index stamp =>
    (s.indexes[index]?).map fun shared =>
      let isrc := uppercase setting.toUppercase isrc
      match s.insertion setting shared.index (allocated isrc (capacity isrc)) path stamp with
      | none => { s with panicked := true }
      | some next =>
        { s.goTo position call (.inserted index next.bytes) with
          indexes := s.indexes.set index { shared with index := next } }
  | .inserted index bytes =>
    some (s.commit position call (.added true)
        (if (s.state.indexes.get? directory).any (·.index = index) then
          s.state.store setting.sizes directory index bytes
        else some s.state))
  | _ => none

/-- The next step of a call. -/
def advance (position : Nat) (call : Call) (capacity : String → Nat) : Option IndexCache :=
  match call.request with
  | .check directory isrc => s.advanceCheck setting position call directory isrc
  | .add directory isrc path => s.advanceAdd setting position call directory isrc path capacity

/-- A listing ends. It has the files that were there when it began and still are, and others
only if they have come since. -/
def list (position : Nat) (call : Call) (listed : List Index.Listed) : Option IndexCache :=
  match call.phase with
  | .walking builder generation previous builtAt seen since =>
    if (∀ stamp ∈ seen, s.stat? stamp.path = some stamp →
          listed.any (·.stamp = stamp) = true) ∧
        ∀ one ∈ listed, setting.within call.request.directory one.stamp.path = true ∧
          (one.stamp ∈ seen ∨ one.stamp ∈ s.history.drop since) then
      some (s.goTo position call (.reading builder generation previous builtAt listed {}))
    else none
  | _ => none

/-- A changed file is read. -/
def readFile (position : Nat) (call : Call) (path : String) (capacity : Nat) :
    Option IndexCache :=
  match call.phase with
  | .reading builder generation previous builtAt listed readings =>
    if (Index.changed previous listed).any (·.stamp.path = path) &&
        (readings.get? path).isNone then
      let isrc := allocated (uppercase setting.toUppercase (s.tag path)) capacity
      some (s.goTo position call
          (.reading builder generation previous builtAt listed (readings.put path isrc)))
    else none
  | _ => none

/-- A check or an operation on the files fails. -/
def fail (position : Nat) (call : Call) : Option IndexCache :=
  match call.phase with
  | .checking | .found _ _ | .missing _ | .adding | .taken _ | .stamped _ _ =>
    some (s.goTo position call .failed)
  | .waiting builder => some (s.goTo position call (.leaving builder false none))
  | .listing builder _ _ | .walking builder _ _ _ _ _ | .reading builder _ _ _ _ _ =>
    some (s.goTo position call (.leaving builder true none))
  | _ => none

/-- The generations of builders that are referred to go up. -/
def bump (builders : List Nat) : List Builder :=
  builders.foldl (fun all builder =>
    all.modify builder fun one => { one with generation := one.generation + 1 }) s.builders

def invalidate (directory : String) : IndexCache :=
  match s.state.remove directory with
  | none => { s with panicked := true }
  | some state =>
    { s with
      state := { state with
        builders := state.builders.retain fun _ builder => s.alive builder }
      builders := s.bump (((state.builders.get? directory).filter s.alive).toList) }

def clear : IndexCache :=
  let builders := s.state.builders.retain fun _ builder => s.alive builder
  { s with
    state := { s.state with indexes := {}, bytes := 0, builders }
    builders := s.bump (builders.entries.map Prod.snd) }

/-- A call begins. -/
def begin (request : Request) (phase : Phase) : IndexCache :=
  { s with calls := s.calls ++ [{ request, phase }] }

/-- One event. -/
def step : CacheEvent → Option IndexCache
  | .check directory isrc => some (s.begin (.check directory isrc) .checking)
  | .add directory isrc path => some (s.begin (.add directory isrc path) .adding)
  | .invalidate directory => some (s.invalidate directory)
  | .clear => some s.clear
  | .advance position capacity =>
    (s.calls[position]?).bind (s.advance setting position · capacity)
  | .list position listed => (s.calls[position]?).bind (s.list setting position · listed)
  | .read position path capacity =>
    (s.calls[position]?).bind (s.readFile setting position · path capacity)
  | .fail position => (s.calls[position]?).bind (s.fail position)
  | .create file =>
    if (s.stat? file.stamp.path).isSome then none
    else some { s with files := s.files ++ [file], history := s.history ++ [file.stamp] }
  | .delete path => some { s with files := s.files.filter (·.stamp.path ≠ path) }
  | .tick elapsed => some { s with now := s.now + elapsed }

/-- The cache as a machine, which begins empty, with any files. -/
def machine : Machine IndexCache CacheEvent where
  Start s := ∃ files now, s = { files, now }
  step s := s.step setting

end IndexCache
end LosslessMusic.Isrc
