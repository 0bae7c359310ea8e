import LosslessMusic.Queue.Entry
import LosslessMusic.Transition.Machine
import Mathlib.Logic.Function.Basic

/-!
# Verification challenges

`extension_verification_coordinator.dart`: challenges are opened for entries that fail for
want of verification, and entries are retried once a grant arrives. Changes of the queue,
grants, time-outs and the ends of `openVerification` come in any order.
-/

namespace LosslessMusic.Queue

open Transition (Machine)

def containsHttpStatusCode (message code : String) : Bool :=
  Text.contains message ("http " ++ code) || Text.contains message ("http status " ++ code) ||
    Text.contains message ("status " ++ code) || Text.contains message (code ++ " for ") ||
    Text.contains message (code ++ ":") || Text.contains message (code ++ ";")

def isExtensionVerificationRequired (error : String) : Bool :=
  let message := Text.toLowerCase error
  Text.contains message "verify_required" || Text.contains message "verification_required" ||
    Text.contains message "verification required" || Text.contains message "needsverification" ||
    Text.contains message "needs verification" ||
    Text.contains message "session is not authenticated" ||
    Text.contains message "unauthorized" || Text.contains message "precondition required" ||
    containsHttpStatusCode message "401" || containsHttpStatusCode message "428"

def verificationTargetFor (entry : DownloadEntry) : Option String :=
  if !isExtensionVerificationRequired (entry.error.getD "") then none
  else
    let target := Text.trimDart ((entry.verificationService.or entry.service).getD "")
    if target = "" then none else some target

/-- A challenge that was opened. The last field records that it is over: it timed out, a
grant for its extension came, or no browser was launched. -/
structure Challenge where
  extensionId : String
  completed : Bool := false
  isOver : Bool := false
  deriving DecidableEq, Repr

/-- What the last field of the coordinator records. -/
inductive Mark
  | retried (trackId extensionId : String)
  | done (trackId : String)
  deriving DecidableEq, Repr

/-- `'$trackId::$extensionId'`. -/
def retryKey (trackId extensionId : String) : String :=
  trackId ++ "::" ++ extensionId

/-- The coordinator with the last queue state and all challenges there have been. A pending
timer is named by its challenge; a grant that is worked off has entries left. -/
structure ExtensionVerificationCoordinator where
  pendingByExtension : String → Option Nat := fun _ => none
  autoRetried : List String := []
  entries : List DownloadEntry := []
  challenges : List Challenge := []
  grants : List (String × List DownloadEntry) := []
  log : List Mark := []

/-- What happens; the queue may change while a grant is worked off. -/
inductive VerificationEvent
  | queueChanged (next : List DownloadEntry)
  | granted (extensionId : String) (success : Bool) (entries : List DownloadEntry)
  | retryNext (grant : Nat)
  | timedOut (challenge : Nat)
  | opened (challenge : Nat) (result : Bool)

namespace ExtensionVerificationCoordinator

variable (s : ExtensionVerificationCoordinator)

/-- `previousById[entry.itemId]?.status`; the last entry of an id counts. -/
def previousStatus (entry : DownloadEntry) : Option EntryStatus :=
  (s.entries.reverse.find? (·.itemId = entry.itemId)).map DownloadEntry.status

/-- A timer is set and the challenge is opened. -/
def openChallenge (target : String) : ExtensionVerificationCoordinator :=
  { s with
    pendingByExtension := Function.update s.pendingByExtension target (some s.challenges.length)
    challenges := s.challenges ++ [{ extensionId := target }] }

/-- The entry is done now. -/
def completes (entry : DownloadEntry) : Bool :=
  entry.status = .done && s.previousStatus entry ≠ some .done

/-- The entry has failed now. -/
def fails (entry : DownloadEntry) : Bool :=
  entry.status = .failed && s.previousStatus entry ≠ some .failed

/-- One turn of `onQueueChanged`. -/
def onEntry (entry : DownloadEntry) : ExtensionVerificationCoordinator :=
  if s.completes entry then
    { s with
      autoRetried := s.autoRetried.filter (!Text.startsWith · (entry.track.id ++ "::"))
      log := s.log ++ [.done entry.track.id] }
  else if s.fails entry then
    match verificationTargetFor entry with
    | none => s
    | some target =>
      if (s.pendingByExtension target).isSome then s else s.openChallenge target
  else s

def onQueueChanged (next : List DownloadEntry) : ExtensionVerificationCoordinator :=
  { next.foldl onEntry s with entries := next }

def clearPending (extensionId : String) : ExtensionVerificationCoordinator :=
  { s with pendingByExtension := Function.update s.pendingByExtension extensionId none }

/-- `onGrantCompleted` before its loop. -/
def onGrantCompleted (extensionId : String) (success : Bool) (entries : List DownloadEntry) :
    ExtensionVerificationCoordinator :=
  { s.clearPending extensionId with
    challenges := s.challenges.map fun challenge =>
      if challenge.extensionId = extensionId then { challenge with isOver := true } else challenge
    grants := if success then s.grants ++ [(extensionId, entries)] else s.grants }

/-- One turn of `onGrantCompleted`. -/
def retryEntry (extensionId : String) (entry : DownloadEntry) :
    ExtensionVerificationCoordinator :=
  if entry.status = .failed ∧ verificationTargetFor entry = some extensionId ∧
      retryKey entry.track.id extensionId ∉ s.autoRetried then
    { s with
      autoRetried := s.autoRetried ++ [retryKey entry.track.id extensionId]
      log := s.log ++ [.retried entry.track.id extensionId] }
  else s

/-- A grant goes on with its next entry. -/
def retryNext (position : Nat) : Option ExtensionVerificationCoordinator :=
  match s.grants[position]? with
  | some (extensionId, entry :: rest) =>
    some
      { s.retryEntry extensionId entry with
        grants := s.grants.set position (extensionId, rest) }
  | _ => none

/-- A challenge is over. -/
def endChallenge (position : Nat) (challenge : Challenge) : ExtensionVerificationCoordinator :=
  { s.clearPending challenge.extensionId with
    challenges := s.challenges.set position { challenge with isOver := true } }

/-- The timer of a challenge. -/
def timedOut (position : Nat) (challenge : Challenge) :
    Option ExtensionVerificationCoordinator :=
  if s.pendingByExtension challenge.extensionId = some position then
    some (s.endChallenge position challenge)
  else none

/-- The end of `_open`. -/
def opened (position : Nat) (challenge : Challenge) (result : Bool) :
    Option ExtensionVerificationCoordinator :=
  if challenge.completed then none
  else
    let challenge := { challenge with completed := true }
    some (if result then { s with challenges := s.challenges.set position challenge }
      else s.endChallenge position challenge)

/-- One event. -/
def step : VerificationEvent → Option ExtensionVerificationCoordinator
  | .queueChanged next => some (s.onQueueChanged next)
  | .granted extensionId success entries => some (s.onGrantCompleted extensionId success entries)
  | .retryNext position => s.retryNext position
  | .timedOut position => (s.challenges[position]?).bind (s.timedOut position)
  | .opened position result => (s.challenges[position]?).bind (s.opened position · result)

/-- The coordinator as a machine, which begins with nothing. -/
def machine : Machine ExtensionVerificationCoordinator VerificationEvent where
  Start s := s = {}
  step s := s.step

/-! ## What is promised -/

/-- An entry has failed for want of verification. -/
def wants (entry : DownloadEntry) : Bool :=
  entry.status = .failed && isExtensionVerificationRequired (entry.error.getD "")

/-- The entry shows this error for the first time. -/
def showsError (entry : DownloadEntry) : Bool :=
  wants entry && !(s.entries.reverse.find? (·.itemId = entry.itemId)).any wants

/-- At most one challenge of an extension is outstanding. -/
def OneChallenge (s : ExtensionVerificationCoordinator) : Prop :=
  ∀ (i j : Nat) (one other : Challenge), s.challenges[i]? = some one →
    s.challenges[j]? = some other → one.isOver = false → other.isOver = false →
    one.extensionId = other.extensionId → i = j

/-- Between two retries of a track for an extension the track has been completed. -/
def RetriedOnce (s : ExtensionVerificationCoordinator) : Prop :=
  ∀ (i j : Nat) (trackId extensionId : String), i < j →
    s.log[i]? = some (.retried trackId extensionId) →
    s.log[j]? = some (.retried trackId extensionId) →
    ∃ k, i < k ∧ k < j ∧ s.log[k]? = some (.done trackId)

/-- The entries that show the error for the first time have a challenge. -/
def Answers (s : ExtensionVerificationCoordinator) (event : VerificationEvent)
    (next : ExtensionVerificationCoordinator) : Prop :=
  match event with
  | .queueChanged entries =>
    ∀ entry ∈ entries, s.showsError entry = true →
      ∀ target, verificationTargetFor entry = some target →
        (next.pendingByExtension target).isSome = true
  | _ => True

/-- No key of another track that was retried begins with the id of this one. -/
def spares (trackId : String) : Bool :=
  s.log.all fun
    | .retried other extensionId =>
      other = trackId || !Text.startsWith (retryKey other extensionId) (trackId ++ "::")
    | .done _ => true

/-- The target of an entry is pending, or an entry that fails now has it. -/
def isAnswered (entries : List DownloadEntry) (entry : DownloadEntry) : Bool :=
  (verificationTargetFor entry).all fun target =>
    (s.pendingByExtension target).isSome ||
      entries.any fun other => s.fails other && verificationTargetFor other = some target

/-- The condition: an error that shows later than the failure finds a challenge for its
target, the id of a completed track spares the retries of other tracks, and the browser of a
challenge fails to launch only while no later challenge of its extension is pending. -/
def isOrderly : VerificationEvent → Bool
  | .queueChanged entries =>
    entries.all fun entry =>
      (!s.showsError entry || s.isAnswered entries entry) &&
        (!s.completes entry || s.spares entry.track.id)
  | .opened position false =>
    (s.challenges[position]?).all fun challenge =>
      (s.pendingByExtension challenge.extensionId).all (· = position)
  | _ => true

/-! ## What one step keeps -/

section

variable {s : ExtensionVerificationCoordinator}

/-- Challenges that are not over are pending, and retries since the last completion of their
track are remembered. -/
structure Sound (s : ExtensionVerificationCoordinator) : Prop where
  held : ∀ (i : Nat) challenge, s.challenges[i]? = some challenge → challenge.isOver = false →
    s.pendingByExtension challenge.extensionId = some i
  armed : ∀ (i : Nat) trackId extensionId, s.log[i]? = some (.retried trackId extensionId) →
    (∃ k, i < k ∧ s.log[k]? = some (.done trackId)) ∨ retryKey trackId extensionId ∈ s.autoRetried
  once : s.RetriedOnce

theorem sound_new : Sound {} where
  held := nofun
  armed := nofun
  once := nofun

theorem Sound.oneChallenge (sound : s.Sound) : s.OneChallenge := by
  intro i j one other isOne isOther running stillRunning same
  have first := sound.held i one isOne running
  rw [same, sound.held j other isOther stillRunning] at first
  exact (Option.some.inj first).symm

theorem getElem?_log_append {mark : Mark} {i : Nat} {one : Mark}
    (isOne : (s.log ++ [mark])[i]? = some one) :
    s.log[i]? = some one ∨ i = s.log.length ∧ one = mark := by
  rcases Nat.lt_or_ge i s.log.length with old | new
  · exact .inl ((List.getElem?_append_left old).symm.trans isOne)
  · have last := (List.getElem?_append_right new).symm.trans isOne
    have zero : i - s.log.length = 0 := by
      by_contra later
      rw [List.getElem?_eq_none (by simp; omega)] at last
      cases last
    rw [zero] at last
    exact .inr ⟨by omega, (Option.some.inj last).symm⟩

theorem getElem?_log_old {mark one : Mark} {i : Nat} (isOne : s.log[i]? = some one) :
    (s.log ++ [mark])[i]? = some one :=
  (List.getElem?_append_left (List.getElem?_eq_some_iff.mp isOne).1).trans isOne

theorem spares_of_mem {trackId other extensionId : String} (spares : s.spares trackId = true)
    (member : Mark.retried other extensionId ∈ s.log) :
    other = trackId ∨ Text.startsWith (retryKey other extensionId) (trackId ++ "::") = false := by
  have one := List.all_eq_true.mp spares _ member
  simpa using one

variable {target : String}

theorem sound_openChallenge (sound : s.Sound)
    (free : s.pendingByExtension target = none) : (s.openChallenge target).Sound := by
  refine ⟨fun i challenge isOne running => ?_, sound.armed, sound.once⟩
  change (s.challenges ++ [({ extensionId := target } : Challenge)])[i]? = some challenge at isOne
  show Function.update s.pendingByExtension target (some s.challenges.length)
    challenge.extensionId = some i
  rcases Nat.lt_or_ge i s.challenges.length with old | new
  · rw [List.getElem?_append_left old] at isOne
    have pending := sound.held i challenge isOne running
    rw [Function.update_of_ne]
    · exact pending
    · intro same
      rw [same, free] at pending
      cases pending
  · rw [List.getElem?_append_right new] at isOne
    have zero : i - s.challenges.length = 0 := by
      by_contra later
      rw [List.getElem?_eq_none (by simp; omega)] at isOne
      cases isOne
    rw [zero] at isOne
    rw [← Option.some.inj isOne, Function.update_self]
    exact congrArg some (by omega)

theorem sound_done (sound : s.Sound) {trackId : String} (spares : s.spares trackId = true) : Sound
      { s with
        autoRetried := s.autoRetried.filter (!Text.startsWith · (trackId ++ "::"))
        log := s.log ++ [.done trackId] } := by
  refine ⟨sound.held, fun i other extensionId isOne => ?_,
    fun i j other extensionId before isOne isTwo => ?_⟩
  · rcases getElem?_log_append isOne with old | ⟨-, new⟩
    · rcases spares_of_mem spares (List.mem_of_getElem? old) with rfl | spared
      · refine .inl ⟨s.log.length, (List.getElem?_eq_some_iff.mp old).1, ?_⟩
        exact List.getElem?_concat_length
      · rcases sound.armed i other extensionId old with ⟨k, later, isDone⟩ | remembered
        · exact .inl ⟨k, later, getElem?_log_old isDone⟩
        · refine .inr (List.mem_filter.mpr ⟨remembered, ?_⟩)
          rw [spared]
          rfl
    · cases new
  · rcases getElem?_log_append isTwo with old | ⟨-, new⟩
    · rcases getElem?_log_append isOne with older | ⟨-, new⟩
      · obtain ⟨k, after, earlier, isDone⟩ := sound.once i j other extensionId before older old
        exact ⟨k, after, earlier, getElem?_log_old isDone⟩
      · cases new
    · cases new

variable {entry : DownloadEntry}

theorem sound_onEntry (sound : s.Sound)
    (spares : s.completes entry = true → s.spares entry.track.id = true) :
    (s.onEntry entry).Sound := by
  unfold onEntry
  split
  next completes => exact sound_done sound (spares completes)
  · split
    · split
      · exact sound
      · split
        · exact sound
        next free => exact sound_openChallenge sound (Option.not_isSome_iff_eq_none.mp free)
    · exact sound

@[simp] theorem entries_onEntry (entry : DownloadEntry) :
    (s.onEntry entry).entries = s.entries := by
  unfold onEntry
  split
  · rfl
  · split
    · split
      · rfl
      · split <;> rfl
    · rfl

theorem spares_onEntry (entry : DownloadEntry) (trackId : String) :
    (s.onEntry entry).spares trackId = s.spares trackId := by
  unfold onEntry
  split
  · unfold ExtensionVerificationCoordinator.spares
    rw [List.all_append]
    simp
  · split
    · split
      · rfl
      · split <;> rfl
    · rfl

theorem pending_onEntry
    (pending : (s.pendingByExtension target).isSome = true) (entry : DownloadEntry) :
    ((s.onEntry entry).pendingByExtension target).isSome = true := by
  unfold onEntry
  split
  · exact pending
  · split
    · split
      · exact pending
      next other _ =>
        split
        · exact pending
        · show (Function.update s.pendingByExtension other (some s.challenges.length)
            target).isSome = true
          by_cases same : target = other
          · rw [same, Function.update_self]
            rfl
          · rw [Function.update_of_ne same]
            exact pending
    · exact pending

theorem pending_of_fails (fails : s.fails entry = true)
    (isTarget : verificationTargetFor entry = some target) :
    ((s.onEntry entry).pendingByExtension target).isSome = true := by
  have failed : entry.status = .failed := by
    unfold ExtensionVerificationCoordinator.fails at fails
    rw [Bool.and_eq_true, decide_eq_true_iff] at fails
    exact fails.1
  have unfinished : s.completes entry = false := by simp [completes, failed]
  unfold onEntry
  rw [unfinished, fails, isTarget]
  simp only [Bool.false_eq_true, if_false, if_true]
  split
  · assumption
  · show (Function.update s.pendingByExtension target (some s.challenges.length)
      target).isSome = true
    rw [Function.update_self]
    rfl

/-! ## What a change of the queue keeps -/

variable {now : ExtensionVerificationCoordinator}

theorem sound_foldl (entries : List DownloadEntry)
    (same : now.entries = s.entries) (spared : ∀ trackId, now.spares trackId = s.spares trackId)
    (orderly : ∀ entry ∈ entries, s.completes entry = true → s.spares entry.track.id = true)
    (sound : now.Sound) : (entries.foldl onEntry now).Sound := by
  induction entries generalizing now with
  | nil => exact sound
  | cons entry rest ih =>
    rw [List.foldl_cons]
    refine ih ((entries_onEntry entry).trans same)
      (fun trackId => (spares_onEntry entry trackId).trans (spared trackId))
      (fun one member => orderly one (List.mem_cons_of_mem entry member)) ?_
    refine sound_onEntry sound fun isDone => ?_
    rw [spared]
    refine orderly entry List.mem_cons_self ?_
    unfold completes previousStatus at isDone ⊢
    rw [same] at isDone
    exact isDone

theorem pending_foldl (entries : List DownloadEntry)
    (pending : (now.pendingByExtension target).isSome = true) :
    ((entries.foldl onEntry now).pendingByExtension target).isSome = true := by
  induction entries generalizing now with
  | nil => exact pending
  | cons entry rest ih =>
    exact ih (pending_onEntry pending entry)

theorem pending_foldl_of_fails {entries : List DownloadEntry}
    (member : entry ∈ entries) (fails : s.fails entry = true)
    (isTarget : verificationTargetFor entry = some target) (same : now.entries = s.entries) :
    ((entries.foldl onEntry now).pendingByExtension target).isSome = true := by
  induction entries generalizing now with
  | nil => cases member
  | cons one rest ih =>
    rw [List.foldl_cons]
    rcases List.mem_cons.mp member with rfl | later
    · refine pending_foldl rest (pending_of_fails ?_ isTarget)
      unfold ExtensionVerificationCoordinator.fails previousStatus at fails ⊢
      rw [same]
      exact fails
    · exact ih later ((entries_onEntry one).trans same)

theorem sound_onQueueChanged (sound : s.Sound) {next : List DownloadEntry}
    (orderly : ∀ entry ∈ next, s.completes entry = true → s.spares entry.track.id = true) :
    (s.onQueueChanged next).Sound := by
  have folded := sound_foldl next rfl (fun _ => rfl) orderly sound
  exact ⟨folded.held, folded.armed, folded.once⟩

/-! ## What the other steps keep -/

theorem sound_onGrantCompleted (sound : s.Sound) (extensionId : String) (success : Bool)
    (entries : List DownloadEntry) : (s.onGrantCompleted extensionId success entries).Sound := by
  refine ⟨fun i challenge isOne running => ?_, sound.armed, sound.once⟩
  change (s.challenges.map fun challenge =>
    if challenge.extensionId = extensionId then { challenge with isOver := true }
    else challenge)[i]? = some challenge at isOne
  rw [List.getElem?_map] at isOne
  obtain ⟨old, isOld, rfl⟩ := Option.map_eq_some_iff.mp isOne
  by_cases same : old.extensionId = extensionId
  · rw [if_pos same] at running
    cases running
  · rw [if_neg same] at running ⊢
    exact (Function.update_of_ne same _ _).trans (sound.held i old isOld running)

theorem sound_retryEntry (sound : s.Sound) (extensionId : String) (entry : DownloadEntry) :
    (s.retryEntry extensionId entry).Sound := by
  unfold retryEntry
  split
  next retried =>
    obtain ⟨-, -, new⟩ := retried
    refine ⟨sound.held, fun i trackId other isOne => ?_,
      fun i j trackId other before isOne isTwo => ?_⟩
    · rcases getElem?_log_append isOne with old | ⟨-, last⟩
      · rcases sound.armed i trackId other old with ⟨k, later, isDone⟩ | remembered
        · exact .inl ⟨k, later, getElem?_log_old isDone⟩
        · exact .inr (List.mem_append_left _ remembered)
      · cases last
        exact .inr (List.mem_append_right _ (List.mem_singleton_self _))
    · have isOld : s.log[i]? = some (.retried trackId other) := by
        rcases getElem?_log_append isOne with old | ⟨last, -⟩
        · exact old
        · have bound := (List.getElem?_eq_some_iff.mp isTwo).1
          rw [List.length_append, List.length_singleton] at bound
          omega
      rcases getElem?_log_append isTwo with old | ⟨last, same⟩
      · obtain ⟨k, after, earlier, isDone⟩ := sound.once i j trackId other before isOld old
        exact ⟨k, after, earlier, getElem?_log_old isDone⟩
      · cases same
        rcases sound.armed i _ _ isOld with ⟨k, later, isDone⟩ | remembered
        · refine ⟨k, later, ?_, getElem?_log_old isDone⟩
          rw [last]
          exact (List.getElem?_eq_some_iff.mp isDone).1
        · exact absurd remembered new
  · exact sound

/-- A challenge ends that is the pending one of its extension, or there is none. -/
theorem sound_endChallenge (sound : s.Sound) {position : Nat} {challenge : Challenge}
    (own : ∀ other, s.pendingByExtension challenge.extensionId = some other → other = position) :
    (s.endChallenge position challenge).Sound := by
  refine ⟨fun i one isOne running => ?_, sound.armed, sound.once⟩
  change (s.challenges.set position { challenge with isOver := true })[i]? = some one at isOne
  rw [List.getElem?_set] at isOne
  split at isOne
  · split at isOne
    · rw [← Option.some.inj isOne] at running
      cases running
    · cases isOne
  next elsewhere =>
    have pending := sound.held i one isOne running
    show Function.update s.pendingByExtension challenge.extensionId none one.extensionId = some i
    rw [Function.update_of_ne]
    · exact pending
    · intro same
      rw [same] at pending
      exact elsewhere (own i pending).symm

variable {next : ExtensionVerificationCoordinator}

theorem sound_opened (sound : s.Sound) {position : Nat} {challenge : Challenge}
    (found : s.challenges[position]? = some challenge) {result : Bool}
    (ended : s.opened position challenge result = some next)
    (orderly : s.isOrderly (.opened position result) = true) : next.Sound := by
  unfold opened at ended
  split at ended
  · cases ended
  · cases ended
    cases result with
    | false =>
      refine sound_endChallenge sound fun other pending => ?_
      simpa [isOrderly, found, pending] using orderly
    | true =>
      refine ⟨fun i one isOne running => ?_, sound.armed, sound.once⟩
      change (s.challenges.set position { challenge with completed := true })[i]? =
        some one at isOne
      rw [List.getElem?_set] at isOne
      split at isOne
      next here =>
        split at isOne
        · cases isOne
          rw [← here]
          exact sound.held position challenge found running
        · cases isOne
      · exact sound.held i one isOne running

variable {event : VerificationEvent}

theorem sound_step (sound : s.Sound) (stepped : s.step event = some next)
    (orderly : s.isOrderly event = true) : next.Sound := by
  cases event with
  | queueChanged entries =>
    cases stepped
    refine sound_onQueueChanged sound fun entry member isDone => ?_
    have both := List.all_eq_true.mp orderly entry member
    simpa [isDone] using (Bool.and_eq_true_iff.mp both).2
  | granted extensionId success entries =>
    cases stepped
    exact sound_onGrantCompleted sound extensionId success entries
  | retryNext position =>
    change s.retryNext position = some next at stepped
    unfold retryNext at stepped
    split at stepped
    next extensionId entry rest _ =>
      cases stepped
      have retried := sound_retryEntry sound extensionId entry
      exact ⟨retried.held, retried.armed, retried.once⟩
    · cases stepped
  | timedOut position =>
    obtain ⟨challenge, -, ended⟩ := Option.bind_eq_some_iff.mp stepped
    unfold timedOut at ended
    split at ended
    next pending =>
      cases ended
      refine sound_endChallenge sound fun other isOther => ?_
      rw [pending] at isOther
      exact (Option.some.inj isOther).symm
    · cases ended
  | opened position result =>
    obtain ⟨challenge, found, ended⟩ := Option.bind_eq_some_iff.mp stepped
    exact sound_opened sound found ended orderly

theorem answers_step (stepped : s.step event = some next) (orderly : s.isOrderly event = true) :
    s.Answers event next := by
  cases event with
  | queueChanged entries =>
    cases stepped
    intro entry member shows target isTarget
    have both := List.all_eq_true.mp orderly entry member
    have answered : s.isAnswered entries entry = true := by
      simpa [shows] using (Bool.and_eq_true_iff.mp both).1
    simp only [isAnswered, isTarget, Option.all_some, Bool.or_eq_true, List.any_eq_true,
      Bool.and_eq_true, decide_eq_true_iff] at answered
    rcases answered with pending | ⟨other, isMember, fails, isOther⟩
    · exact pending_foldl entries pending
    · exact pending_foldl_of_fails isMember fails isOther rfl
  | _ => trivial

end

/-- In a run whose steps meet the condition, an extension has one challenge at a time, a
track is retried once between its completions, and errors that show are answered. -/
theorem coordinator_promised (s : ExtensionVerificationCoordinator)
    (reachable : machine.Reachable (fun s event => isOrderly s event = true) s) :
    s.OneChallenge ∧ s.RetriedOnce ∧
      ∀ event next, s.isOrderly event = true → s.step event = some next →
        s.Answers event next := by
  have sound : s.Sound := by
    refine reachable.invariant ?_ fun _ _ _ _ sound orderly stepped =>
      sound_step sound stepped orderly
    rintro _ rfl
    exact sound_new
  exact ⟨sound.oneChallenge, sound.once, fun _ _ orderly stepped => answers_step stepped orderly⟩

/-! ## Runs that break the promises -/

/-- An entry of the extension `web` that has failed. -/
def failedEntry (itemId trackId : String) (error : Option String) : DownloadEntry where
  track := ⟨trackId, none⟩
  itemId := itemId
  status := .failed
  error := error
  service := some "web"

/-- It wants verification. -/
def unverified (itemId trackId : String) : DownloadEntry :=
  failedEntry itemId trackId (some "VERIFY_REQUIRED")

/-- The browser of a challenge that has timed out fails to launch after the next one was
opened. -/
def launchedLate : List VerificationEvent :=
  [.queueChanged [unverified "1" "a"], .timedOut 0,
    .queueChanged [unverified "1" "a", unverified "2" "b"], .opened 0 false,
    .queueChanged [unverified "1" "a", unverified "2" "b", unverified "3" "c"]]

/-- The id of a completed track, followed by the separator, begins that of another. -/
def likeIds : List VerificationEvent :=
  [.granted "web" true [unverified "1" "a::b"], .retryNext 0,
    .queueChanged [{ failedEntry "2" "a" none with status := .done }],
    .granted "web" true [unverified "1" "a::b"], .retryNext 1]

/-- A failure, a challenge, and the retry after the grant. -/
def verified : List VerificationEvent :=
  [.queueChanged [unverified "1" "a"], .opened 0 true,
    .granted "web" true [unverified "1" "a"], .retryNext 0]

theorem coordinator_promised_verified :
    ∃ s : ExtensionVerificationCoordinator, s.log = [.retried "a" "web"] ∧
      s.OneChallenge ∧ s.RetriedOnce ∧
        ∀ event next, s.isOrderly event = true → s.step event = some next →
          s.Answers event next := by
  have meets : machine.runMeets isOrderly {} verified = true := by decide +kernel
  have ran : (machine.run {} verified).any (·.log = [.retried "a" "web"]) = true := by
    decide +kernel
  obtain ⟨s, reachable, logged⟩ := machine.exists_reachable_of_runMeets _ rfl meets ran
  exact ⟨s, of_decide_eq_true logged, coordinator_promised s reachable⟩

theorem not_oneChallenge : ∃ s : ExtensionVerificationCoordinator,
      machine.Reachable Machine.anyStep s ∧ ¬s.OneChallenge := by
  have ran : (machine.run {} launchedLate).any (fun s =>
      s.challenges[1]? = some { extensionId := "web" } &&
        s.challenges[2]? = some { extensionId := "web" }) = true := by
    decide +kernel
  obtain ⟨s, reachable, outstanding⟩ := machine.exists_reachable_of_run _ rfl ran
  rw [Bool.and_eq_true, decide_eq_true_iff, decide_eq_true_iff] at outstanding
  refine ⟨s, reachable, fun single => ?_⟩
  have same := single 1 2 _ _ outstanding.1 outstanding.2 rfl rfl rfl
  omega

theorem not_retriedOnce : ∃ s : ExtensionVerificationCoordinator,
      machine.Reachable Machine.anyStep s ∧ ¬s.RetriedOnce := by
  have ran : (machine.run {} likeIds).any (fun s =>
      s.log = [.retried "a::b" "web", .done "a", .retried "a::b" "web"]) = true := by
    decide +kernel
  obtain ⟨s, reachable, logged⟩ := machine.exists_reachable_of_run _ rfl ran
  rw [decide_eq_true_iff] at logged
  refine ⟨s, reachable, fun once => ?_⟩
  obtain ⟨k, after, before, isDone⟩ := once 0 2 "a::b" "web" (by omega) (by rw [logged]; rfl)
    (by rw [logged]; rfl)
  obtain rfl : k = 1 := by omega
  rw [logged] at isDone
  exact absurd isDone (by decide)

theorem not_answers : ∃ (s : ExtensionVerificationCoordinator) (event : VerificationEvent)
      (next : ExtensionVerificationCoordinator),
      machine.Reachable Machine.anyStep s ∧ s.step event = some next ∧ ¬s.Answers event next := by
  have ran : machine.run {} [.queueChanged [failedEntry "1" "a" none]] =
      some { entries := [failedEntry "1" "a" none] } := by
    rfl
  refine ⟨_, .queueChanged [unverified "1" "a"], _, ⟨{}, rfl, Machine.anyPath_of_run ran⟩,
    rfl, fun answers => ?_⟩
  have pending := answers (unverified "1" "a") (List.mem_singleton_self _) (by decide +kernel)
    "web" (by decide +kernel)
  exact absurd pending (by decide +kernel)

theorem coordinator_breaks :
    ¬∀ s : ExtensionVerificationCoordinator, machine.Reachable Machine.anyStep s →
      s.OneChallenge ∧ s.RetriedOnce ∧
        ∀ event next, s.step event = some next → s.Answers event next := by
  intro promised
  obtain ⟨s, event, next, reachable, stepped, unanswered⟩ := not_answers
  exact unanswered ((promised s reachable).2.2 event next stepped)

end ExtensionVerificationCoordinator
end LosslessMusic.Queue
