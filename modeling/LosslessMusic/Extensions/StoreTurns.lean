import LosslessMusic.Extensions.StoreSafety

/-!
# Calls of different kinds

A call depends on the files, the cache and the temporary file of its kind, and changes
nothing else. So calls of different kinds do not notice each other.
-/

namespace LosslessMusic.Extensions.Store

open Interruption

variable {ν : Type}

/-- Two worlds are the same for a kind of store. -/
structure Agree (kind : StoreKind) (world other : World ν) : Prop where
  disk : ∀ name : FileName, name.kind = kind → world.disk name = other.disk name
  cache : world.cache kind = other.cache kind
  temporary : world.temporary kind = other.temporary kind

variable {kind : StoreKind} {world other : World ν} {asked : Request ν} {choice : Choice}

theorem Agree.status (agree : Agree kind world other) {name : FileName}
    (own : name.kind = kind) : world.status name = other.status name := by
  unfold World.status
  rw [agree.disk name own]

theorem Agree.data (agree : Agree kind world other) {name : FileName}
    (own : name.kind = kind) : world.data? name = other.data? name := by
  unfold World.data?
  rw [agree.disk name own]

theorem Agree.refl (world : World ν) : Agree kind world world := ⟨fun _ _ => rfl, rfl, rfl⟩

theorem Agree.trans {third : World ν} (first : Agree kind world other)
    (second : Agree kind other third) : Agree kind world third :=
  ⟨fun name own => (first.disk name own).trans (second.disk name own),
    first.cache.trans second.cache, first.temporary.trans second.temporary⟩

section Elsewhere

variable {mine : StoreKind}

theorem agree_put (different : mine ≠ kind) {name : FileName} (own : name.kind = kind)
    (stored : Option Stored) : Agree mine world (world.put name stored) := by
  refine ⟨?_, rfl, rfl⟩
  intro mine' within
  have elsewhere : mine' ≠ name := by
    rintro rfl
    exact different (within.symm.trans own)
  exact (Function.update_of_ne elsewhere _ _).symm

theorem agree_hold (different : mine ≠ kind) (temporary : Option Temporary) :
    Agree mine world (world.hold kind temporary) :=
  ⟨fun _ _ => rfl, rfl, (Function.update_of_ne different _ _).symm⟩

theorem agree_effect (different : mine ≠ kind) (own : asked.ownedBy kind) :
    Agree mine world (effect kind world asked choice).1 := by
  cases asked with
  | identity _ _ | read _ | random _ | sync | syncDirectory | cached =>
    cases choice <;> exact .refl _
  | create =>
    cases choice with
    | stamped modified inode => exact agree_hold different _
    | failed | succeeded | bytes _ => exact .refl _
  | write data =>
    cases choice with
    | stamped _ _ | bytes _ => exact agree_hold different _
    | failed | succeeded => exact .refl _
  | persist name =>
    cases choice with
    | succeeded =>
      simp only [effect]
      split
      · exact (agree_put different own _).trans (agree_hold different _)
      · exact .refl _
    | failed | stamped _ _ | bytes _ => exact .refl _
  | remove name =>
    cases choice with
    | succeeded =>
      simp only [effect]
      split
      · exact agree_put different own _
      · exact .refl _
    | failed | stamped _ _ | bytes _ => exact .refl _
  | remember cache =>
    have kept : Agree mine world (world.remember kind cache) :=
      ⟨fun _ _ => rfl, (Function.update_of_ne different _ _).symm, rfl⟩
    cases choice <;> exact kept

end Elsewhere

theorem Agree.put (agree : Agree kind world other) (name : FileName) (stored : Option Stored) :
    Agree kind (world.put name stored) (other.put name stored) := by
  refine ⟨?_, agree.cache, agree.temporary⟩
  intro name' own
  simp only [World.put]
  by_cases same : name' = name
  · rw [same, Function.update_self, Function.update_self]
  · rw [Function.update_of_ne same, Function.update_of_ne same]
    exact agree.disk name' own

theorem Agree.hold (agree : Agree kind world other) (temporary : Option Temporary) :
    Agree kind (world.hold kind temporary) (other.hold kind temporary) := by
  refine ⟨agree.disk, agree.cache, ?_⟩
  simp only [World.hold, Function.update_self]

/-- A request about the files of a kind depends on the world of that kind. -/
theorem Agree.effect (agree : Agree kind world other) (own : asked.ownedBy kind) :
    Agree kind (effect kind world asked choice).1 (effect kind other asked choice).1 ∧
      (effect kind world asked choice).2 = (effect kind other asked choice).2 := by
  have held := agree.hold
  have temporary := agree.temporary
  have cache := agree.cache
  cases asked with
  | identity name settled =>
    have status := agree.status own
    cases choice <;> simp only [Store.effect, status, and_true] <;> exact agree
  | read name =>
    have data := agree.data own
    cases choice <;> simp only [Store.effect, data, and_true] <;> exact agree
  | random _ | sync | syncDirectory => cases choice <;> exact ⟨agree, rfl⟩
  | create => cases choice <;> simp only [Store.effect, and_true] <;> first | exact held _ | exact agree
  | write data =>
    cases choice <;> simp only [Store.effect, temporary, and_true] <;>
      first | exact held _ | exact agree
  | persist name =>
    cases choice with
    | succeeded =>
      simp only [Store.effect, temporary]
      split
      · exact ⟨(agree.put name _).hold none, rfl⟩
      · exact ⟨agree, rfl⟩
    | failed | stamped _ _ | bytes _ => exact ⟨agree, rfl⟩
  | remove name =>
    cases choice with
    | succeeded =>
      simp only [Store.effect, agree.disk name own]
      split
      · exact ⟨agree.put name none, rfl⟩
      · exact ⟨agree, rfl⟩
    | failed | stamped _ _ | bytes _ => exact ⟨agree, rfl⟩
  | cached => cases choice <;> exact ⟨agree, congrArg some cache⟩
  | remember remembered =>
    have kept : Agree kind (world.remember kind remembered) (other.remember kind remembered) := by
      refine ⟨agree.disk, ?_, agree.temporary⟩
      simp only [World.remember, Function.update_self]
    cases choice <;> exact ⟨kept, rfl⟩

section Turns

variable {libraries : Libraries ν} {store : ExtensionStore} {operation : Operation ν}
    {began : Option Stored} {before : Option (Map ν)}

theorem Agree.meaning (agree : Agree kind world other) :
    meaning libraries world.disk kind = meaning libraries other.disk kind :=
  meaning_congr agree.disk

theorem Agree.held (agree : Agree kind world other)
    (held : About kind (Held libraries kind before) world) :
    About kind (Held libraries kind before) other := by
  refine ⟨agree.meaning.symm.trans held.map, ?_⟩
  rw [← agree.cache]
  exact held.snapshot

theorem Agree.settled (agree : Agree kind world other)
    (settled : About kind (Settled libraries store kind began before) world) :
    About kind (Settled libraries store kind began before) other := by
  refine ⟨agree.meaning.symm.trans settled.map, ?_, ?_⟩
  · rw [← agree.cache]
    exact settled.snapshot
  · rw [← agree.disk _ (kind_filename kind)]
    exact settled.spared

theorem Agree.within (agree : Agree kind world other)
    (within : operation.Within libraries kind before world.disk) :
    operation.Within libraries kind before other.disk := by
  unfold Operation.Within at within ⊢
  rw [← agree.meaning]
  exact within

/-- What a call meets, it meets whatever calls of other kinds do in between. -/
theorem MeetsCall.congr {program : Action ν (Reply ν)}
    (meets : MeetsCall libraries store kind operation began before program world)
    (agree : Agree kind world other) :
    MeetsCall libraries store kind operation began before program other := by
  apply Program.Meets.congr meets agree
  · intro state other asked choice own agree
    exact agree.effect own
  · intro state other agree within
    exact agree.within within
  · rintro reply state other agree ⟨map, after, found, replies, held⟩
    exact ⟨map, after, found, replies, agree.held held⟩
  · intro error state other agree settled
    exact agree.settled settled

end Turns

end LosslessMusic.Extensions.Store
