import LosslessMusic.Transfer.PoolSteps
import LosslessMusic.Transition.Parties
import Mathlib.Data.List.Nodup

/-!
# Segment assembly

Every segment between the next one to append and the next job is in at most one
place, so the places of a segment never outnumber the workers. A segment is
fetched at most once and appended right behind its predecessors; a segment whose
append failed is in no place any more, so the file is not written again.
-/

namespace LosslessMusic.Transfer.Pool

open Transition

/-! ## Counting places -/

section Counting

theorem length_filter_key {β : Type} {l : List (Nat × β)} {index : Nat} {data : β}
    (member : (index, data) ∈ l) : (l.filter (·.1 ≠ index)).length < l.length := by
  rw [List.length_filter_lt_length_iff_exists]
  exact ⟨(index, data), member, by simp⟩

theorem countP_filter_key {β : Type} {l : List (Nat × β)} (index other : Nat) :
    (l.filter (·.1 ≠ index)).countP (·.1 = other) =
      if other = index then 0 else l.countP (·.1 = other) := by
  rw [List.countP_filter]
  split
  next same =>
    rw [List.countP_eq_zero]
    intro entry _
    simp [same]
  next distinct =>
    apply List.countP_congr
    intro entry _
    simp only [Bool.and_eq_true, decide_eq_true_eq, and_iff_left_iff_imp]
    rintro rfl
    exact distinct

end Counting

/-- A message that carries a segment. -/
def Message.isCompleted : Message → Bool
  | .completed _ _ => true
  | .failed _ => false

/-- A message that carries the segment. -/
def Message.names (index : Nat) : Message → Bool
  | .completed current _ => current = index
  | .failed _ => false

/-- The segments that are queued, being fetched, or fetched and not yet appended. -/
def busy (s : Pool) : Nat :=
  s.queue.length + s.workers.countP WorkerPoint.holds +
    s.results.countP Message.isCompleted + s.pending.length + s.main.isAppending.toNat

/-- How often a segment was fetched. -/
def fetchCount (s : Pool) (index : Nat) : Nat :=
  s.fetched.countP (·.1 = index)

/-- How often a segment is queued, being fetched or fetched. -/
def placed (s : Pool) (index : Nat) : Nat :=
  s.queue.count index + s.workers.countP (WorkerPoint.fetches index) + s.fetchCount index

/-- How often a fetched segment is on its way into the file. -/
def carried (s : Pool) (index : Nat) : Nat :=
  s.workers.countP (WorkerPoint.delivers index) + s.results.countP (Message.names index) +
    s.pending.countP (·.1 = index) +
    (s.main.isAppending && s.nextIndex == index).toNat

namespace Shifts

variable {point next : WorkerPoint}

theorem holds_le (shifts : Shifts point next) : next.holds.toNat ≤ point.holds.toNat := by
  cases shifts with
  | release released => simp [released]
  | again => exact Nat.le_refl _

theorem fetches_le (shifts : Shifts point next) (index : Nat) :
    (next.fetches index).toNat ≤ (point.fetches index).toNat := by
  cases shifts with
  | release released =>
    have nothing : next.fetches index = false := WorkerPoint.fetches_of_free released index
    simp [nothing]
  | again => exact Nat.le_refl _

theorem delivers_le (shifts : Shifts point next) (index : Nat) :
    (next.delivers index).toNat ≤ (point.delivers index).toNat := by
  cases shifts with
  | release released =>
    have nothing : next.delivers index = false := WorkerPoint.delivers_of_free released index
    simp [nothing]
  | again => exact Nat.le_refl _

end Shifts

variable {call : Call} {s next : Pool}

/-! ## Slots -/

variable (call) in

/-- The slots of the pool: what is busy lies between the next segment to append and
the next job, and these are at most as many as the workers. -/
structure Slots (s : Pool) : Prop where
  within : s.busy + s.nextIndex ≤ s.nextJob
  bounded : s.nextJob + s.main.owesSlot.toNat ≤ s.nextIndex + call.workerCount
  jobs : s.nextJob ≤ call.segments
  open_ : s.senderOpen = true → s.nextJob < call.segments

theorem slots_start : Slots call (start call) := by
  have available : call.workerCount ≤ call.segments - call.first := by
    unfold Call.workerCount
    exact Nat.min_le_right _ _
  have within := call.within
  unfold start
  by_cases restored : call.first = call.segments
  · constructor
    · simp [busy, restored, MainPoint.isAppending]
    · simp [restored, MainPoint.owesSlot]
    · simp only
      omega
    · simp
  · constructor
    · simp [busy, restored, MainPoint.isAppending]
      omega
    · simp [restored, MainPoint.owesSlot]
    · simp only
      omega
    · simp

theorem Slots.step (slots : Slots call s) (moved : Moved call s next) : Slots call next := by
  have within := slots.within
  have bounded := slots.bounded
  have jobs := slots.jobs
  have open_ := slots.open_
  unfold busy at within
  cases moved with
  | @shift position point after here shifts =>
    have counted := countP_set_add (p := WorkerPoint.holds) after here
    have fewer := shifts.holds_le
    constructor
    · simp only [busy, setWorker]
      omega
    · exact bounded
    · exact jobs
    · exact open_
  | @take position index rest here queued =>
    have counted := countP_set_add (p := WorkerPoint.holds) (.fetching index 1 []) here
    rw [queued, List.length_cons] at within
    simp only [WorkerPoint.holds, Bool.toNat_true, Bool.toNat_false] at counted
    refine ⟨?_, bounded, jobs, open_⟩
    simp only [busy, setWorker]
    omega
  | @complete position index attempt received here filled =>
    have counted := countP_set_add (p := WorkerPoint.holds)
      (.sending (.completed index received)) here
    simp only [WorkerPoint.holds] at counted
    refine ⟨?_, bounded, jobs, open_⟩
    simp only [busy, setWorker]
    omega
  | @deliver position index data after here _ released =>
    have counted := countP_set_add (p := WorkerPoint.holds) after here
    have carries : (WorkerPoint.sending (.completed index data)).holds = true := rfl
    rw [carries, released, Bool.toNat_true, Bool.toNat_false] at counted
    refine ⟨?_, bounded, jobs, open_⟩
    simp only [busy, setWorker, List.countP_append, List.countP_singleton,
      Message.isCompleted, if_true]
    omega
  | @report position point after errorType here _ released =>
    have counted := countP_set_add (p := WorkerPoint.holds) after here
    simp only [released, Bool.toNat_false] at counted
    refine ⟨?_, bounded, jobs, open_⟩
    simp only [busy, setWorker, List.countP_append, List.countP_singleton,
      Message.isCompleted, Bool.false_eq_true, if_false]
    omega
  | spawn outside resting =>
    rw [outside] at within
    refine ⟨?_, ?_, jobs, open_⟩
    · simp only [busy, resting.outside, List.countP_append, List.countP_singleton,
        WorkerPoint.holds, Bool.false_eq_true, if_false]
      omega
    · simp only [resting.settled, Bool.toNat_false]
      omega
  | proceed outside resting flagging =>
    rw [outside] at within
    rcases flagging with rfl | ⟨errorType, rfl⟩
    · refine ⟨?_, ?_, jobs, open_⟩
      · simp only [busy, resting.outside]
        omega
      · simp only [resting.settled, Bool.toNat_false]
        omega
    · refine ⟨?_, ?_, jobs, ?_⟩
      · simp only [busy, fail, resting.outside]
        omega
      · simp only [fail, resting.settled, Bool.toNat_false]
        omega
      · simp [fail]
  | @receive index data rest outside message =>
    have kept := List.length_filter_le (fun entry => decide (entry.1 ≠ index)) s.pending
    rw [message, List.countP_cons, outside] at within
    simp only [Message.isCompleted, if_true, MainPoint.isAppending] at within
    rw [outside] at bounded
    refine ⟨?_, bounded, jobs, open_⟩
    simp only [busy, List.length_cons, MainPoint.isAppending]
    omega
  | receiveFailure outside message =>
    rw [message, List.countP_cons, outside] at within
    rw [outside] at bounded
    refine ⟨?_, bounded, jobs, ?_⟩
    · simp only [busy, fail, MainPoint.isAppending] at within ⊢
      omega
    · simp [fail]
  | append outside ready =>
    have shorter := length_filter_key ready
    rw [outside] at within bounded
    refine ⟨?_, bounded, jobs, open_⟩
    simp only [busy, MainPoint.isAppending, Bool.toNat_true, Bool.toNat_false] at within ⊢
    omega
  | copy inside _ | publish inside =>
    rw [inside] at within bounded
    exact ⟨within, bounded, jobs, open_⟩
  | abort rolledBack inside =>
    rw [inside] at within bounded
    refine ⟨?_, bounded, jobs, ?_⟩
    · simp only [busy, fail, MainPoint.isAppending, Bool.toNat_true, Bool.toNat_false] at within ⊢
      omega
    · simp [fail]
  | appended inside =>
    rw [inside] at within bounded
    simp only [MainPoint.isAppending, MainPoint.owesSlot, Bool.toNat_true,
      Bool.toNat_false] at within bounded
    refine ⟨?_, ?_, jobs, open_⟩
    · simp only [busy, MainPoint.isAppending, Bool.toNat_false]
      omega
    · simp only [MainPoint.owesSlot, Bool.toNat_true]
      omega
  | save ok inside =>
    rw [inside] at within bounded
    unfold checkpoint
    split
    · exact ⟨within, bounded, jobs, open_⟩
    · exact ⟨within, bounded, jobs, open_⟩
  | release inside opened room =>
    have unissued := open_ opened
    rw [inside] at within bounded
    simp only [MainPoint.isAppending, MainPoint.owesSlot, Bool.toNat_true,
      Bool.toNat_false] at within bounded
    refine ⟨?_, ?_, ?_, ?_⟩
    · simp only [busy, List.length_append, List.length_singleton,
        MainPoint.isAppending, Bool.toNat_false]
      omega
    · simp only [MainPoint.owesSlot, Bool.toNat_false]
      omega
    · simp only
      omega
    · simp only [decide_eq_true_eq]
      omega
  | join saved inside =>
    rw [inside] at within bounded
    unfold onJoined
    split
    · exact ⟨within, bounded, jobs, open_⟩
    split
    · unfold checkpoint
      split
      · exact ⟨within, bounded, jobs, open_⟩
      · exact ⟨within, bounded, jobs, open_⟩
    split
    · exact ⟨within, bounded, jobs, open_⟩
    · exact ⟨within, bounded, jobs, open_⟩

/-! ## One fetch for each segment -/

/-- A segment is in one place at most, and only once its job was issued. -/
structure Once (s : Pool) : Prop where
  placed : ∀ index, s.placed index ≤ 1
  issued : ∀ index, 0 < s.placed index → index < s.nextJob

theorem once_start : Once (start call) := by
  have counted : ∀ index, (start call).placed index = (start call).queue.count index := by
    intro index
    simp [placed, fetchCount, start]
  have distinct : (start call).queue.Nodup := by
    unfold start
    split
    · exact List.nodup_nil
    · exact List.nodup_range'
  constructor
  · intro index
    rw [counted]
    exact List.nodup_iff_count_le_one.mp distinct index
  · intro index positive
    rw [counted, List.count_pos_iff] at positive
    unfold start at positive ⊢
    split at positive
    · cases positive
    · rw [List.mem_range'_1] at positive
      exact positive.2

theorem toNat_decide (condition : Prop) [Decidable condition] :
    (decide condition).toNat = if condition then 1 else 0 := by
  split
  next holds => rw [decide_eq_true holds]; rfl
  next fails => rw [decide_eq_false fails]; rfl

theorem placed_step (moved : Moved call s next) (index : Nat) :
    (next.placed index ≤ s.placed index ∧ next.nextJob = s.nextJob) ∨
      (next.placed index = s.placed index + (if s.nextJob = index then 1 else 0) ∧
        next.nextJob = s.nextJob + 1) := by
  cases moved with
  | @shift position point after here shifts =>
    have counted := countP_set_add (p := WorkerPoint.fetches index) after here
    have fewer := shifts.fetches_le index
    refine .inl ⟨?_, rfl⟩
    simp only [placed, fetchCount, setWorker]
    omega
  | @take position job rest here queued =>
    have counted := countP_set_add (p := WorkerPoint.fetches index) (.fetching job 1 []) here
    have waits : WorkerPoint.waiting.fetches index = false := rfl
    have fetches : (WorkerPoint.fetching job 1 []).fetches index = decide (job = index) := rfl
    rw [waits, fetches] at counted
    refine .inl ⟨?_, rfl⟩
    simp only [placed, fetchCount, setWorker, queued, List.count_cons, beq_iff_eq]
    simp only [toNat_decide, Bool.toNat_false] at counted
    omega
  | @complete position job attempt received here filled =>
    have counted := countP_set_add (p := WorkerPoint.fetches index)
      (.sending (.completed job received)) here
    have sends : (WorkerPoint.sending (.completed job received)).fetches index = false := rfl
    have fetches : (WorkerPoint.fetching job attempt received).fetches index =
        decide (job = index) := rfl
    rw [sends, fetches] at counted
    refine .inl ⟨?_, rfl⟩
    simp only [placed, fetchCount, setWorker, List.countP_cons, decide_eq_true_eq]
    simp only [toNat_decide, Bool.toNat_false] at counted
    omega
  | @deliver _ _ _ after here _ released | @report _ _ after _ here _ released =>
    have counted := countP_set_add (p := WorkerPoint.fetches index) after here
    rw [WorkerPoint.fetches_of_free released] at counted
    refine .inl ⟨?_, rfl⟩
    simp only [placed, fetchCount, setWorker, Bool.toNat_false] at counted ⊢
    omega
  | spawn outside resting =>
    refine .inl ⟨?_, rfl⟩
    simp [placed, fetchCount, WorkerPoint.fetches]
  | proceed outside resting flagging =>
    rcases flagging with rfl | ⟨errorType, rfl⟩
    · exact .inl ⟨Nat.le_refl _, rfl⟩
    · exact .inl ⟨Nat.le_refl _, rfl⟩
  | save ok inside =>
    unfold checkpoint
    split
    · exact .inl ⟨Nat.le_refl _, rfl⟩
    · exact .inl ⟨Nat.le_refl _, rfl⟩
  | release inside opened room =>
    refine .inr ⟨?_, rfl⟩
    simp only [placed, fetchCount, List.count_append, List.count_singleton, beq_iff_eq]
    omega
  | join saved inside =>
    unfold onJoined checkpoint
    refine .inl ?_
    split
    · exact ⟨Nat.le_refl _, rfl⟩
    split
    · split
      · exact ⟨Nat.le_refl _, rfl⟩
      · exact ⟨Nat.le_refl _, rfl⟩
    split
    · exact ⟨Nat.le_refl _, rfl⟩
    · exact ⟨Nat.le_refl _, rfl⟩
  | receive | receiveFailure | append | copy | abort | appended | publish =>
    exact .inl ⟨Nat.le_refl _, rfl⟩

theorem Once.step (once : Once s) (moved : Moved call s next) : Once next := by
  constructor
  · intro index
    have bound := once.placed index
    rcases placed_step moved index with ⟨fewer, _⟩ | ⟨issued, _⟩
    · omega
    · split at issued
      next same =>
        have unissued : ¬ 0 < s.placed index := by
          intro placed
          have earlier := once.issued index placed
          omega
        omega
      · omega
  · intro index positive
    rcases placed_step moved index with ⟨fewer, same⟩ | ⟨issued, later⟩
    · have earlier := once.issued index (by omega)
      omega
    · split at issued
      · omega
      · have earlier := once.issued index (by omega)
        omega

/-- Of each segment a step carries on at most what was there or was just fetched. -/
theorem carried_step (moved : Moved call s next) (index : Nat) :
    next.carried index + s.fetchCount index ≤ s.carried index + next.fetchCount index := by
  cases moved with
  | @shift position point after here shifts =>
    have counted := countP_set_add (p := WorkerPoint.delivers index) after here
    have fewer := shifts.delivers_le index
    simp only [carried, fetchCount, setWorker]
    omega
  | @take position job rest here queued =>
    have counted := countP_set_add (p := WorkerPoint.delivers index) (.fetching job 1 []) here
    have waits : WorkerPoint.waiting.delivers index = false := rfl
    have fetches : (WorkerPoint.fetching job 1 []).delivers index = false := rfl
    rw [waits, fetches] at counted
    simp only [carried, fetchCount, setWorker] at counted ⊢
    omega
  | @complete position job attempt received here filled =>
    have counted := countP_set_add (p := WorkerPoint.delivers index)
      (.sending (.completed job received)) here
    have sends : (WorkerPoint.sending (.completed job received)).delivers index =
        decide (job = index) := rfl
    have fetches : (WorkerPoint.fetching job attempt received).delivers index = false := rfl
    rw [sends, fetches] at counted
    simp only [carried, fetchCount, setWorker, List.countP_cons, decide_eq_true_eq]
    simp only [toNat_decide, Bool.toNat_false] at counted
    omega
  | @deliver position job data after here _ released =>
    have counted := countP_set_add (p := WorkerPoint.delivers index) after here
    have sends : (WorkerPoint.sending (.completed job data)).delivers index =
        decide (job = index) := rfl
    rw [sends, WorkerPoint.delivers_of_free released] at counted
    simp only [carried, fetchCount, setWorker, List.countP_append, List.countP_singleton,
      Message.names, decide_eq_true_eq]
    simp only [toNat_decide, Bool.toNat_false] at counted
    omega
  | @report position point after errorType here _ released =>
    have counted := countP_set_add (p := WorkerPoint.delivers index) after here
    rw [WorkerPoint.delivers_of_free released] at counted
    simp only [carried, fetchCount, setWorker, List.countP_append, List.countP_singleton,
      Message.names, Bool.false_eq_true, if_false, Bool.toNat_false] at counted ⊢
    omega
  | spawn outside resting =>
    simp [carried, fetchCount, WorkerPoint.delivers, outside, resting.outside]
  | proceed outside resting flagging =>
    rcases flagging with rfl | ⟨errorType, rfl⟩
    · simp [carried, fetchCount, outside, resting.outside]
    · simp [carried, fetchCount, fail, outside, resting.outside]
  | @receive job data rest outside message =>
    have kept := countP_filter_key (l := s.pending) job index
    simp only [carried, fetchCount, message, outside, List.countP_cons, Message.names,
      MainPoint.isAppending, decide_eq_true_eq, Bool.false_and, kept]
    by_cases same : job = index
    · simp only [same, if_true]
      omega
    · simp only [same, Ne.symm same, if_false]
      omega
  | receiveFailure outside message =>
    simp only [carried, fetchCount, fail, message, outside, List.countP_cons,
      Message.names, MainPoint.isAppending, Bool.false_and]
    omega
  | append outside ready =>
    have kept := countP_filter_key (l := s.pending) s.nextIndex index
    simp only [carried, fetchCount, outside, MainPoint.isAppending, Bool.false_and,
      Bool.true_and, kept]
    by_cases same : s.nextIndex = index
    · have present : 0 < s.pending.countP (·.1 = index) :=
        List.countP_pos_iff.mpr ⟨_, ready, by simp [same]⟩
      simp only [same, if_true, beq_self_eq_true, Bool.toNat_true, Bool.toNat_false]
      omega
    · simp only [Ne.symm same, if_false, beq_eq_false_iff_ne.mpr same, Bool.toNat_false]
      omega
  | copy inside _ =>
    simp only [carried, fetchCount, inside, MainPoint.isAppending]
    omega
  | abort rolledBack inside =>
    simp only [carried, fetchCount, fail, inside, MainPoint.isAppending, Bool.false_and,
      Bool.toNat_false]
    omega
  | appended inside =>
    simp only [carried, fetchCount, inside, MainPoint.isAppending, Bool.false_and, Bool.toNat_false]
    omega
  | save ok inside =>
    unfold checkpoint
    split
    · simp [carried, fetchCount, inside, MainPoint.isAppending]
    · simp [carried, fetchCount, inside, MainPoint.isAppending]
  | release inside _ _ | publish inside =>
    simp [carried, fetchCount, inside, MainPoint.isAppending]
  | join saved inside =>
    unfold onJoined checkpoint
    split
    · simp [carried, fetchCount, inside, MainPoint.isAppending]
    split
    · split
      · simp [carried, fetchCount, inside, MainPoint.isAppending]
      · simp [carried, fetchCount, inside, MainPoint.isAppending]
    split
    · simp [carried, fetchCount, inside, MainPoint.isAppending]
    · simp [carried, fetchCount, inside, MainPoint.isAppending]

/-! ## The assembled file -/

variable (call) in

/-- The restored prefix and the segments this call appended. -/
def assembled (s : Pool) : Bytes :=
  call.restored ++ s.appended.flatten

/-- What the steps that do not append leave alone. -/
structure Keeps (s next : Pool) : Prop where
  file : next.file = s.file
  bytes : next.bytes = s.bytes
  nextIndex : next.nextIndex = s.nextIndex
  appended : next.appended = s.appended
  main : next.main = s.main ∨ (s.main.isAppending = false ∧ next.main.isAppending = false)
  failure : s.firstFailure.isSome = true → next.firstFailure.isSome = true
  saved : next.saved = s.saved ∨ next.saved = none ∨ next.saved = some (s.nextIndex, s.bytes)

theorem Keeps.of_main {flagged : Pool} {main : MainPoint}
    (flagging : flagged = s ∨ ∃ errorType, flagged = s.fail errorType)
    (outside : s.main.isAppending = false) (resting : main.isAppending = false) :
    Keeps s { flagged with main } := by
  rcases flagging with rfl | ⟨errorType, rfl⟩
  · exact ⟨rfl, rfl, rfl, rfl, .inr ⟨outside, resting⟩, id, .inl rfl⟩
  · exact ⟨rfl, rfl, rfl, rfl, .inr ⟨outside, resting⟩, fun _ => rfl, .inl rfl⟩

theorem Keeps.of_checkpoint {main : MainPoint} (ok : Bool)
    (outside : s.main.isAppending = false) (resting : main.isAppending = false) :
    Keeps s { s.checkpoint call ok with main } := by
  unfold checkpoint
  split
  · exact ⟨rfl, rfl, rfl, rfl, .inr ⟨outside, resting⟩, id, .inl rfl⟩
  · exact ⟨rfl, rfl, rfl, rfl, .inr ⟨outside, resting⟩, id, .inr (.inr rfl)⟩

theorem keeps_or_appends (moved : Moved call s next) : Keeps s next ∨
      (∃ data, s.main = .assembling ∧ (s.nextIndex, data) ∈ s.pending ∧
        next = { s with
          pending := s.pending.filter (·.1 ≠ s.nextIndex)
          main := .appending data 0 }) ∨
      (∃ data copied count, s.main = .appending data copied ∧ copied + count ≤ data.length ∧
        next = { s with
          file := s.file ++ (data.drop copied).take count
          main := .appending data (copied + count) }) ∨
      (∃ data copied written, ∃ rolledBack : Bool, s.main = .appending data copied ∧
        next = { s.fail "storage_error" with
          file := if rolledBack then (s.file ++ (data.drop copied).take written).take s.bytes
            else s.file ++ (data.drop copied).take written
          main := .checking }) ∨
      (∃ data, s.main = .appending data data.length ∧
        next = { s with
          bytes := s.bytes + data.length
          nextIndex := s.nextIndex + 1
          appended := s.appended ++ [data]
          main := .saving }) := by
  cases moved with
  | shift | take | complete | deliver | report =>
    exact .inl ⟨rfl, rfl, rfl, rfl, .inl rfl, id, .inl rfl⟩
  | spawn outside resting =>
    exact .inl ⟨rfl, rfl, rfl, rfl, .inr ⟨outside, resting.outside⟩, id, .inl rfl⟩
  | proceed outside resting flagging =>
    exact .inl (.of_main flagging outside resting.outside)
  | receive outside message =>
    exact .inl ⟨rfl, rfl, rfl, rfl, .inr ⟨by rw [outside]; rfl, rfl⟩, id, .inl rfl⟩
  | receiveFailure outside message =>
    exact .inl ⟨rfl, rfl, rfl, rfl, .inr ⟨by rw [outside]; rfl, rfl⟩, fun _ => rfl, .inl rfl⟩
  | append outside ready => exact .inr (.inl ⟨_, outside, ready, rfl⟩)
  | copy inside fits => exact .inr (.inr (.inl ⟨_, _, _, inside, fits, rfl⟩))
  | abort rolledBack inside =>
    exact .inr (.inr (.inr (.inl ⟨_, _, _, rolledBack, inside, rfl⟩)))
  | appended inside => exact .inr (.inr (.inr (.inr ⟨_, inside, rfl⟩)))
  | save ok inside => exact .inl (.of_checkpoint ok (by rw [inside]; rfl) rfl)
  | release inside opened room =>
    exact .inl ⟨rfl, rfl, rfl, rfl, .inr ⟨by rw [inside]; rfl, rfl⟩, id, .inl rfl⟩
  | join saved inside =>
    have outside : s.main.isAppending = false := by
      rw [inside]
      rfl
    unfold onJoined
    split
    · exact .inl (.of_main (.inl rfl) outside rfl)
    split
    · exact .inl (.of_checkpoint saved outside rfl)
    split
    · exact .inl (.of_main (.inl rfl) outside rfl)
    · exact .inl (.of_main (.inl rfl) outside rfl)
  | publish inside =>
    exact .inl ⟨rfl, rfl, rfl, rfl, .inr ⟨by rw [inside]; rfl, rfl⟩, id, .inr (.inl rfl)⟩

theorem fetched_subset (moved : Moved call s next) : s.fetched ⊆ next.fetched := by
  cases moved with
  | complete here filled => exact List.subset_cons_self _ _
  | proceed outside resting flagging =>
    rcases flagging with rfl | ⟨errorType, rfl⟩ <;> exact List.Subset.refl _
  | save ok inside =>
    unfold checkpoint
    split <;> exact List.Subset.refl _
  | join saved inside =>
    unfold onJoined checkpoint
    split
    · exact List.Subset.refl _
    split
    · split <;> exact List.Subset.refl _
    split <;> exact List.Subset.refl _
  | _ => exact List.Subset.refl _

/-- Whatever is on its way into the file was fetched. -/
structure Genuine (s : Pool) : Prop where
  workers : ∀ point ∈ s.workers, ∀ ready, point.result = some ready → ready ∈ s.fetched
  results : ∀ index data, .completed index data ∈ s.results → (index, data) ∈ s.fetched
  pending : ∀ ready ∈ s.pending, ready ∈ s.fetched
  appending : ∀ data copied, s.main = .appending data copied → (s.nextIndex, data) ∈ s.fetched

/-- A worker after a step has what it or its predecessor had, or just fetched it. -/
theorem Genuine.of_set (genuine : Genuine s) {position : Nat} {after : WorkerPoint}
    {fetched : List (Nat × Bytes)} (kept : s.fetched ⊆ fetched)
    (new : ∀ ready, after.result = some ready → ready ∈ fetched) :
    ∀ point ∈ s.workers.set position after, ∀ ready,
      point.result = some ready → ready ∈ fetched := by
  intro point member ready result
  rcases List.mem_or_eq_of_mem_set member with old | rfl
  · exact kept (genuine.workers point old ready result)
  · exact new ready result

theorem Genuine.step (genuine : Genuine s) (moved : Moved call s next) : Genuine next := by
  have kept := fetched_subset moved
  cases moved with
  | @shift position point after here shifts =>
    have nothing : after.result = none := by
      cases shifts with
      | release released => exact WorkerPoint.result_of_free released
      | again => rfl
    exact
      { workers := genuine.of_set kept (by simp [nothing])
        results := genuine.results
        pending := genuine.pending
        appending := genuine.appending }
  | take here queued =>
    exact
      { workers := genuine.of_set kept (by simp [WorkerPoint.result])
        results := genuine.results
        pending := genuine.pending
        appending := genuine.appending }
  | complete here filled =>
    refine
      { workers := genuine.of_set kept ?_
        results := fun index data member => kept (genuine.results index data member)
        pending := fun ready member => kept (genuine.pending ready member)
        appending := fun data copied inside => kept (genuine.appending data copied inside) }
    rintro ready ⟨⟩
    exact List.mem_cons_self
  | @deliver position index data after here _ released =>
    refine
      { workers := genuine.of_set kept ?_
        results := ?_
        pending := genuine.pending
        appending := genuine.appending }
    · simp [WorkerPoint.result_of_free released]
    · intro job content member
      rcases List.mem_append.mp member with old | new
      · exact genuine.results job content old
      · obtain ⟨rfl, rfl⟩ := Message.completed.inj (List.mem_singleton.mp new)
        exact genuine.workers _ (List.mem_of_getElem? here) _ rfl
  | @report position point after errorType here _ released =>
    refine
      { workers := genuine.of_set kept ?_
        results := ?_
        pending := genuine.pending
        appending := genuine.appending }
    · simp [WorkerPoint.result_of_free released]
    · intro job content member
      rcases List.mem_append.mp member with old | new
      · exact genuine.results job content old
      · cases List.mem_singleton.mp new
  | spawn outside resting =>
    refine
      { workers := ?_
        results := genuine.results
        pending := genuine.pending
        appending := ?_ }
    · intro point member ready result
      rcases List.mem_append.mp member with old | new
      · exact genuine.workers point old ready result
      · rw [List.mem_singleton.mp new] at result
        cases result
    · rintro data copied rfl
      cases resting.outside
  | proceed outside resting flagging =>
    rcases flagging with rfl | ⟨errorType, rfl⟩
    · refine ⟨genuine.workers, genuine.results, genuine.pending, ?_⟩
      rintro data copied rfl
      cases resting.outside
    · refine ⟨genuine.workers, genuine.results, genuine.pending, ?_⟩
      rintro data copied rfl
      cases resting.outside
  | @receive index data rest outside message =>
    refine
      { workers := genuine.workers
        results := ?_
        pending := ?_
        appending := by simp }
    · intro job content member
      apply genuine.results job content
      rw [message]
      exact List.mem_cons_of_mem _ member
    · intro ready member
      rcases List.mem_cons.mp member with rfl | old
      · apply genuine.results
        rw [message]
        exact List.mem_cons_self
      · exact genuine.pending ready (List.mem_filter.mp old).1
  | receiveFailure outside message =>
    refine
      { workers := genuine.workers
        results := ?_
        pending := genuine.pending
        appending := by simp }
    intro job content member
    apply genuine.results job content
    rw [message]
    exact List.mem_cons_of_mem _ member
  | append outside ready =>
    refine
      { workers := genuine.workers
        results := genuine.results
        pending := fun entry member =>
          genuine.pending entry (List.mem_filter.mp member).1
        appending := ?_ }
    rintro data copied ⟨⟩
    exact genuine.pending _ ready
  | copy inside fits =>
    refine ⟨genuine.workers, genuine.results, genuine.pending, ?_⟩
    rintro data copied ⟨⟩
    exact genuine.appending _ _ inside
  | save ok inside =>
    unfold checkpoint
    split
    · exact ⟨genuine.workers, genuine.results, genuine.pending, by simp⟩
    · exact ⟨genuine.workers, genuine.results, genuine.pending, by simp⟩
  | join saved inside =>
    unfold onJoined checkpoint
    split
    · exact ⟨genuine.workers, genuine.results, genuine.pending, by simp⟩
    split
    · split
      · exact ⟨genuine.workers, genuine.results, genuine.pending, by simp⟩
      · exact ⟨genuine.workers, genuine.results, genuine.pending, by simp⟩
    split
    · exact ⟨genuine.workers, genuine.results, genuine.pending, by simp⟩
    · exact ⟨genuine.workers, genuine.results, genuine.pending, by simp⟩
  | abort | appended | release | publish =>
    exact ⟨genuine.workers, genuine.results, genuine.pending, by simp⟩

variable (call) in

/-- The file holds the assembled segments, in order and each as it was fetched;
behind them there is only the segment being appended, or the rest of one whose
append failed and which is in no place any more. The checkpoint names a position
that the assembly went through. -/
structure Content (s : Pool) : Prop where
  position : s.nextIndex = call.first + s.appended.length
  size : s.bytes = (s.assembled call).length
  whole : s.main.isAppending = false → s.file = s.assembled call ∨
      (s.firstFailure.isSome = true ∧ s.assembled call <+: s.file ∧
        s.carried s.nextIndex < s.fetchCount s.nextIndex)
  inside : ∀ data copied, s.main = .appending data copied →
    copied ≤ data.length ∧ s.file = s.assembled call ++ data.take copied
  history : ∀ count data, s.appended[count]? = some data → (call.first + count, data) ∈ s.fetched
  saved : ∀ index bytes, s.saved = some (index, bytes) →
    ∃ count ≤ s.appended.length, index = call.first + count ∧
      bytes = (call.restored ++ (s.appended.take count).flatten).length

theorem content_start : Content call (start call) := by
  constructor
  · simp [start]
  · simp [start, assembled]
  · intro _
    exact .inl (by simp [start, assembled])
  · intro data copied inside
    unfold start at inside
    simp only at inside
    split at inside <;> cases inside
  · simp [start]
  · intro index bytes saved
    unfold start at saved
    simp only at saved
    split at saved
    · cases saved
    · cases saved
      exact ⟨0, Nat.zero_le _, rfl, by simp⟩

/-- The facts about a reachable pool that the assembly rests on. -/
structure Sound (call : Call) (s : Pool) : Prop where
  slots : Slots call s
  once : Once s
  carried : ∀ index, s.carried index ≤ s.fetchCount index
  genuine : Genuine s
  content : Content call s

theorem Keeps.assembled (keeps : Keeps s next) : next.assembled call = s.assembled call := by
  unfold Pool.assembled
  rw [keeps.appended]

/-- A step that does not append keeps the content of the file. -/
theorem Content.keep (content : Content call s) (keeps : Keeps s next)
    (moved : Moved call s next) : Content call next := by
  have assembled : next.assembled call = s.assembled call := keeps.assembled
  constructor
  · rw [keeps.nextIndex, keeps.appended, content.position]
  · rw [keeps.bytes, assembled, content.size]
  · intro outside
    have before : s.main.isAppending = false := by
      rcases keeps.main with same | ⟨resting, _⟩
      · rwa [same] at outside
      · exact resting
    rw [assembled, keeps.file, keeps.nextIndex]
    rcases content.whole before with same | ⟨failed, ahead, lost⟩
    · exact .inl same
    · refine .inr ⟨keeps.failure failed, ahead, ?_⟩
      have carries := carried_step moved s.nextIndex
      omega
  · intro data copied inside
    rcases keeps.main with same | ⟨_, resting⟩
    · rw [same] at inside
      rw [assembled, keeps.file]
      exact content.inside data copied inside
    · rw [inside] at resting
      cases resting
  · intro count data appended
    rw [keeps.appended] at appended
    exact fetched_subset moved (content.history count data appended)
  · intro index bytes saved
    rw [keeps.appended]
    rcases keeps.saved with same | gone | here
    · rw [same] at saved
      exact content.saved index bytes saved
    · rw [gone] at saved
      cases saved
    · rw [here] at saved
      cases saved
      refine ⟨s.appended.length, Nat.le_refl _, content.position, ?_⟩
      rw [List.take_length, content.size]
      rfl

/-- A segment that waits to be appended lies right behind the assembled ones. -/
theorem Sound.ready (sound : Sound call s) {data : Bytes} (outside : s.main = .assembling)
    (ready : (s.nextIndex, data) ∈ s.pending) : s.file = s.assembled call := by
  rcases sound.content.whole (by rw [outside]; rfl) with same | ⟨_, _, lost⟩
  · exact same
  · -- After a failed append the segment would have been fetched twice.
    exfalso
    have waiting : 0 < s.pending.countP (·.1 = s.nextIndex) :=
      List.countP_pos_iff.mpr ⟨_, ready, by simp⟩
    have carried : s.pending.countP (·.1 = s.nextIndex) ≤ s.carried s.nextIndex := by
      unfold Pool.carried
      omega
    have fetched : s.fetchCount s.nextIndex ≤ s.placed s.nextIndex := by
      unfold placed
      omega
    have single := sound.once.placed s.nextIndex
    omega

theorem take_append_take_drop (data : Bytes) (copied count : Nat) :
    data.take copied ++ (data.drop copied).take count = data.take (copied + count) := by
  rw [List.take_add]

theorem Content.step (sound : Sound call s) (moved : Moved call s next) : Content call next := by
  have content := sound.content
  rcases keeps_or_appends moved with keeps | append | copy | abort | appended
  · exact content.keep keeps moved
  · obtain ⟨data, outside, ready, rfl⟩ := append
    have file := sound.ready outside ready
    refine
      { position := content.position
        size := content.size
        whole := by simp [MainPoint.isAppending]
        inside := ?_
        history := content.history
        saved := content.saved }
    rintro after copied ⟨⟩
    refine ⟨Nat.zero_le _, ?_⟩
    rw [List.take_zero, List.append_nil]
    exact file
  · obtain ⟨data, copied, count, inside, fits, rfl⟩ := copy
    have before := (content.inside data copied inside).2
    refine
      { position := content.position
        size := content.size
        whole := by simp [MainPoint.isAppending]
        inside := ?_
        history := content.history
        saved := content.saved }
    rintro after total ⟨⟩
    refine ⟨fits, ?_⟩
    simp only
    rw [before, List.append_assoc, take_append_take_drop]
    rfl
  · obtain ⟨data, copied, written, rolledBack, inside, rfl⟩ := abort
    have before := (content.inside data copied inside).2
    refine
      { position := content.position
        size := content.size
        whole := ?_
        inside := by simp
        history := content.history
        saved := content.saved }
    intro _
    cases rolledBack with
    | true =>
      left
      simp only [if_true]
      rw [before, content.size, List.append_assoc, List.take_left']
      · rfl
      · rfl
    | false =>
      right
      refine ⟨rfl, ?_, ?_⟩
      · simp only [Bool.false_eq_true, if_false]
        rw [before, List.append_assoc]
        exact List.prefix_append _ _
      · -- The segment was counted as being appended and is dropped now.
        have counted := sound.carried s.nextIndex
        simp only [Pool.carried, fetchCount, fail, inside, MainPoint.isAppending,
          beq_self_eq_true, Bool.and_self, Bool.toNat_true, Bool.false_and,
          Bool.toNat_false] at counted ⊢
        omega
  · obtain ⟨data, inside, rfl⟩ := appended
    have before := (content.inside data data.length inside).2
    have longer : ({ s with
        bytes := s.bytes + data.length
        nextIndex := s.nextIndex + 1
        appended := s.appended ++ [data]
        main := .saving } : Pool).assembled call = s.assembled call ++ data := by
      simp [Pool.assembled]
    constructor
    · simp only [List.length_append, List.length_singleton]
      have position := content.position
      omega
    · rw [longer, List.length_append, ← content.size]
    · intro _
      left
      rw [longer]
      simpa using before
    · simp
    · intro count segment present
      simp only at present
      rw [List.getElem?_append] at present
      split at present
      · exact content.history count segment present
      next beyond =>
        have last : count = s.appended.length := by
          by_contra other
          rw [List.getElem?_eq_none (by simp; omega)] at present
          cases present
        subst last
        simp only [Nat.sub_self, List.getElem?_cons_zero, Option.some.injEq] at present
        subst present
        rw [← content.position]
        exact sound.genuine.appending data data.length inside
    · intro index bytes saved
      obtain ⟨count, within, position, size⟩ := content.saved index bytes saved
      refine ⟨count, ?_, position, ?_⟩
      · simp only [List.length_append, List.length_singleton]
        omega
      · simp only
        rw [List.take_append_of_le_length within]
        exact size

theorem Sound.step (sound : Sound call s) (moved : Moved call s next) : Sound call next where
  slots := sound.slots.step moved
  once := sound.once.step moved
  carried := by
    intro index
    have before := sound.carried index
    have after := carried_step moved index
    omega
  genuine := sound.genuine.step moved
  content := Content.step sound moved

theorem sound_of_reachable {guard : Pool → Event → Prop}
    (reachable : (machine call).Reachable guard s) : Sound call s := by
  apply reachable.invariant (motive := Sound call)
  · rintro state rfl
    refine ⟨slots_start, once_start, ?_, ?_, content_start⟩
    · intro index
      have outside : (start call).main.isAppending = false := by
        unfold start
        simp only
        split <;> rfl
      unfold carried
      rw [outside]
      simp [start]
    · constructor
      · simp [start]
      · simp [start]
      · simp [start]
      · intro data copied inside
        unfold start at inside
        simp only at inside
        split at inside <;> cases inside
  · intro state event next _ sound _ stepped
    exact sound.step (moved_of_step stepped)

end LosslessMusic.Transfer.Pool
