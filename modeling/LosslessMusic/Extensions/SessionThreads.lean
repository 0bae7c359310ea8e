import LosslessMusic.Extensions.SessionBooks

/-!
# The threads keep the books

Every call keeps the books and leaves to the others what is theirs, as long as no operation is
at work for so many clears that the counter comes round, no exchange keeps a blocked session,
and none stores a session that is not usable.
-/

namespace LosslessMusic.Extensions.SignedSession

open Transition

variable (libraries : Libraries)

/-- An exchange does not keep a blocked session, and does not store one that is not usable. -/
def Stage.careful (contents : Contents) (answer : Answer) : Stage → Bool
  | .under => true
  | .entering client grantHash =>
    match load client answer contents with
    | (contents, .ok record) =>
      !(contents.completedGrant = grantHash && record.usable libraries answer.now &&
        contents.blocked libraries record)
    | (_, .error _) => true
  | .storing client grantHash base fetched =>
    match load client answer contents with
    | (contents, .ok latest) =>
      if keeps libraries grantHash base contents latest answer.now then
        !contents.blocked libraries latest
      else fetched.usable libraries answer.now
    | (_, .error _) => true

/-- A party does not act too late, and its exchange is careful. -/
def careful (party : Nat) (shared : Shared) (answer : Answer) : Bool :=
  shared.performing.all fun operation => operation.party ≠ party ||
    shared.epoch < operation.began + 2 ^ 64 &&
      operation.stage.careful libraries shared.contents answer

/-- A thread that keeps the books, and comes to what it says. -/
abbrev Keeping {α : Type} (party : Nat) (post : α → Shared → Prop)
    (failed : Fault → Shared → Prop) (thread : Act α) (state : Shared) : Prop :=
  Thread.Safe Sound Relies (fun party shared answer => careful libraries party shared answer = true)
    party post failed thread state

/-- A thread that only leaves what it finds. -/
def Leaves {α : Type} (party : Nat) (thread : Act α) : Prop :=
  ∀ state, Keeping libraries party (fun _ after => Relies party state after)
    (fun _ after => Relies party state after) thread state

variable {libraries : Libraries} {party : Nat} {α γ : Type}

namespace Leaves

theorem done (value : α) : Leaves libraries party (.done value) := fun _ => Relies.refl _ _

theorem fails (fault : Fault) : Leaves libraries party (.fails fault : Act α) :=
  fun _ => Relies.refl _ _

theorem ofExcept (result : Except Fault α) :
    Leaves libraries party (Thread.ofExcept result : Act α) := by
  cases result with
  | ok value => exact done value
  | error fault => exact fails fault

variable {thread : Act α}

theorem after (leaves : Leaves libraries party thread) {start now : Shared}
    (relies : Relies party start now) :
    Keeping libraries party (fun _ after => Relies party start after)
      (fun _ after => Relies party start after) thread now :=
  (leaves now).mono (fun _ _ => relies.trans) fun _ _ => relies.trans

theorem bind {first : Act γ} {next : γ → Act α} (leaves : Leaves libraries party first)
    (continues : ∀ value, Leaves libraries party (next value)) :
    Leaves libraries party (first >>= next) := by
  intro state
  exact Thread.Safe.bind (leaves state) fun value _ relies => (continues value).after relies

theorem outcome (leaves : Leaves libraries party thread) :
    Leaves libraries party (thread.outcome : Act (Except Fault α)) := by
  intro state
  refine (Thread.Safe.outcome (leaves state)).mono (fun result after relies => ?_) fun _ _ => id
  cases result with
  | ok value => exact relies
  | error fault => exact relies

theorem locked {action : Shared → Answer → Shared × Except Fault α}
    (kept : ∀ shared answer, Keeps shared (action shared answer).1) :
    Leaves libraries party (Thread.locked action) := by
  intro state
  refine Thread.safe_locked fun now relied sound answer _ => ?_
  have keeps := kept now answer
  refine ⟨keeps.sound sound, fun other _ => keeps.relies other, ?_⟩
  have whole := relied.trans (keeps.relies party)
  split
  · exact whole
  · exact whole

theorem stuck : Leaves libraries party (Thread.stuck : Act α) := fun _ => Thread.safe_stuck

end Leaves

/-! ## Calls of every operation -/

theorem leaves_checks : Leaves libraries party (checks party) :=
  .locked fun _ answer => .check _ party answer

theorem leaves_request : Leaves libraries party (request party) := by
  refine .locked fun shared answer => ?_
  have kept := Keeps.check shared party answer
  split
  next checked =>
    rw [checked] at kept
    exact kept
  next checked =>
    rw [checked] at kept
    exact kept

theorem leaves_underLock (action : Contents → Answer → Contents × Except Fault α) :
    Leaves libraries party (underLock action) := .locked fun _ _ => .contents _ _

theorem leaves_wait (flight : Nat) : Leaves libraries party (wait party flight) := by
  intro state now relied sound answer _ after result acted
  have awake (waiting : List (Nat × Nat)) : Keeps now { now with waiting } :=
    { Keeps.refl now with }
  have kept : Keeps now after := by
    dsimp only at acted
    split at acted
    next same =>
      cases acted
      have kept := (awake (now.waiting.erase (flight, party))).trans (.check _ party answer)
      rw [same] at kept
      exact kept
    · obtain ⟨known, _, same⟩ := Option.map_eq_some_iff.mp acted
      cases same
      exact awake _
  refine ⟨kept.sound sound, fun other _ => kept.relies other, ?_⟩
  have whole := relied.trans (kept.relies party)
  cases result with
  | ok value => exact whole
  | error fault => exact whole

theorem leaves_requestAgain : Leaves libraries party (requestAgain party) := by
  refine .bind (.outcome leaves_request) fun first => ?_
  split
  · exact .done _
  · exact .bind leaves_checks fun _ => .outcome leaves_request

theorem leaves_performBootstrap (client : Client) :
    Leaves libraries party (performBootstrap party client) := by
  unfold performBootstrap
  refine .bind (.ofExcept _) fun authority => ?_
  refine .bind leaves_requestAgain fun answered => .bind (.ofExcept _) fun response => ?_
  split
  · exact .fails _
  · refine .bind (.ofExcept _) fun record => ?_
    split
    · exact .done _
    · exact .bind (.ofExcept _) fun url => .done _

theorem leaves_exchangeRequests (attempts : Nat) :
    Leaves libraries party (exchangeRequests party attempts) := by
  induction attempts with
  | zero => exact .fails _
  | succ attempts ih =>
    refine .bind leaves_request fun response => ?_
    split
    · exact .bind leaves_checks fun _ => ih
    · split
      · exact .fails _
      · exact .ofExcept _

/-! ## Bootstrap and refresh -/

variable {began : Nat}

theorem epoch_eq {epoch : Nat} (late : began ≤ epoch) (soon : epoch < began + 2 ^ 64)
    (same : epoch % 2 ^ 64 = began % 2 ^ 64) : epoch = began := by
  omega

variable {shared : Shared} {answer : Answer} {operation : Operation}

theorem of_careful (allowed : careful libraries party shared answer = true)
    (here : operation ∈ shared.performing) (mine : operation.party = party) :
    shared.epoch < operation.began + 2 ^ 64 ∧
      operation.stage.careful libraries shared.contents answer = true := by
  have known := List.all_eq_true.mp allowed operation here
  simpa [mine] using known

variable {generation : Nat}

theorem Sound.epoch_eq (sound : Sound shared)
    (allowed : careful libraries party shared answer = true)
    (here : operation ∈ shared.performing) (mine : operation.party = party)
    (began : generation = operation.began % 2 ^ 64) (same : shared.clearGeneration = generation) :
    shared.epoch = operation.began := by
  refine SignedSession.epoch_eq (sound.dated operation here) (of_careful allowed here mine).1 ?_
  rw [← sound.generation, same, began]

/-- What a leader does between its two sections, and how its flight lands. -/
theorem keeping_led {kind : Kind} {flight : Nat} {start now : Shared}
    {work : Act γ} {settle : Except Fault γ → Shared → Answer → Shared × Except Fault α}
    (leads : Leads ⟨kind, flight, party, began, .under⟩ start now)
    (dated : generation = began % 2 ^ 64) (leaves : Leaves libraries party work)
    (settles : ∀ outcome shared answer, (shared.clearGeneration = generation → shared.epoch = began) →
      Keeps shared (settle outcome shared answer).1) :
    Keeping libraries party (fun _ after => Relies party start after)
      (fun _ after => Relies party start after)
      (work.outcome >>= fun outcome => Thread.locked fun shared answer =>
        Shared.land kind flight (settle outcome shared answer)) now := by
  have worked := (leaves.outcome now).mono (fun _ _ relies => leads.later relies) fun _ _ => id
  refine Thread.Safe.bind (worked.mono (fun _ _ => id) fun _ _ relies => ?_)
    fun outcome middle led => ?_
  · exact leads.relies.trans relies
  refine Thread.safe_locked fun found relied sound answer allowed => ?_
  have led := led.later relied
  have keeps := settles outcome found answer fun same =>
    sound.epoch_eq allowed led.here rfl dated same
  have here := keeps.performing.symm ▸ led.here
  have settled := keeps.sound sound
  have finished := Keeps.finish ((settle outcome found answer).1.release kind) flight
    ((settle outcome found answer).2.map fun _ => ())
  have whole := ((led.later (keeps.relies party)).release).trans (finished.relies party)
  refine ⟨finished.sound (settled.release kind), fun other different => ?_, ?_⟩
  · exact ((keeps.relies other).trans (settled.relies_release here different)).trans
      (finished.relies other)
  · split
    · exact whole
    · exact whole

/-- What a party knows behind its first section. -/
def Entered.Known (kind : Kind) (party : Nat) (start after : Shared) : Entered → Prop
  | .performs _ generation began flight =>
    generation = began % 2 ^ 64 ∧ Leads ⟨kind, flight, party, began, .under⟩ start after
  | _ => True

theorem keeping_entering {kind : Kind} {action : Shared → Answer → Shared × Except Fault Entered}
    (entering : ∀ shared answer, Entering kind party shared (action shared answer))
    (state : Shared) :
    Keeping libraries party
      (fun entered after => Relies party state after ∧ entered.Known kind party state after)
      (fun _ after => Relies party state after) (Thread.locked action) state := by
  refine Thread.safe_locked fun now relied sound answer _ => ?_
  have entered := entering now answer
  generalize action now answer = next at entered ⊢
  cases entered with
  | goes contents url =>
    have kept := Keeps.contents now contents
    exact ⟨kept.sound sound, fun other _ => kept.relies other, relied.trans (kept.relies party),
      trivial⟩
  | fails contents fault =>
    have kept := Keeps.contents now contents
    exact ⟨kept.sound sound, fun other _ => kept.relies other, relied.trans (kept.relies party)⟩
  | waits contents flight =>
    have kept := (Keeps.contents now contents).trans (.waits _ flight party)
    exact ⟨kept.sound sound, fun other _ => kept.relies other, relied.trans (kept.relies party),
      trivial⟩
  | takes contents record free =>
    have kept := Keeps.contents now contents
    have led : Leads ⟨kind, now.flights.length, party, now.epoch, .under⟩ state
        ((now.withContents contents).take kind party now.epoch .under) :=
      leads_take (kept.sound sound) free (relied.trans (kept.relies party))
    refine ⟨(kept.sound sound).take free _ _ _ (Nat.le_refl _), fun other _ => ?_, led.relies,
      sound.generation, led⟩
    exact (kept.relies other).trans (relies_take _ _ _ _ _)

variable {client : Client}

theorem settleBootstrap_keeps {base : Record}
    (outcome : Except Fault Bootstrap) (shared : Shared) (answer : Answer)
    (dated : shared.clearGeneration = generation → shared.epoch = began) :
    Keeps shared
      (settleBootstrap libraries party client base generation began outcome shared answer).1 := by
  unfold settleBootstrap
  split
  · exact .refl _
  · have kept := Keeps.check shared party answer
    split
    next checked =>
      rw [checked] at kept
      exact kept
    next checked =>
      rw [checked] at kept
      split
      · exact kept
      next current =>
        split
        · exact kept.trans (.contents _ _)
        · dsimp only
          split
          · exact kept.trans (.contents _ _)
          next replaced =>
            split
            · split
              · exact kept.trans (.contents _ _)
              · refine kept.trans (.store _ _ ⟨?_, fun usable free => ?_⟩)
                · exact (kept.epoch.trans
                    (dated (kept.generation.symm.trans (not_not.mp current)))).symm
                · dsimp only at usable free
                  rw [usable, free] at replaced
                  simpa using replaced
            · split
              · exact kept.trans (.contents _ _)
              · exact kept.trans (.contents _ _)

theorem settleRefresh_keeps {base : Record}
    (outcome : Except Fault Response) (shared : Shared) (answer : Answer)
    (dated : shared.clearGeneration = generation → shared.epoch = began) :
    Keeps shared
      (settleRefresh libraries party client base generation began outcome shared answer).1 := by
  unfold settleRefresh
  split
  · exact .refl _
  · split
    · exact .refl _
    · split
      · exact .refl _
      · have kept := Keeps.check shared party answer
        split
        next checked =>
          rw [checked] at kept
          exact kept
        next checked =>
          rw [checked] at kept
          split
          · exact kept
          next current =>
            split
            · exact kept.trans (.contents _ _)
            · split
              next replaced =>
                split
                · exact kept.trans (.contents _ _)
                · have now := dated (kept.generation.symm.trans (not_not.mp current))
                  exact kept.trans (.store _ _ ⟨(kept.epoch.trans now).symm, fun _ _ => replaced.1⟩)
              · exact kept.trans (.contents _ _)

theorem leaves_bootstrap (client : Client) (turns : Nat) :
    Leaves libraries party (bootstrap libraries party client turns) := by
  induction turns with
  | zero => exact .stuck
  | succ turns ih =>
    refine .bind leaves_checks fun _ state => ?_
    refine Thread.Safe.bind (keeping_entering (entering_bootstrap client) state) fun entered after known => ?_
    have relied := known.1
    split
    · exact relied
    · exact (Leaves.bind (leaves_wait _) fun _ => ih).after relied
    · exact keeping_led known.2.2 known.2.1 (leaves_performBootstrap client) fun outcome _ _ =>
        settleBootstrap_keeps outcome _ _

theorem leaves_refresh (client : Client) (turns : Nat) :
    Leaves libraries party (refresh libraries party client turns) := by
  induction turns with
  | zero => exact .stuck
  | succ turns ih =>
    refine .bind leaves_checks fun _ state => ?_
    refine Thread.Safe.bind (keeping_entering (entering_refresh client) state) fun entered after known => ?_
    have relied := known.1
    split
    · exact relied
    · exact (Leaves.bind (leaves_wait _) fun _ => ih).after relied
    · exact keeping_led known.2.2 known.2.1 leaves_request fun outcome _ _ =>
        settleRefresh_keeps outcome _ _

theorem leaves_preflight (client : Client) (turns : Nat) :
    Leaves libraries party (preflight libraries party client turns) := by
  refine .bind leaves_checks fun _ => .bind (leaves_underLock _) fun ready => ?_
  split
  · exact .done _
  · refine .bind (leaves_bootstrap client turns) fun url => ?_
    split
    · exact .done _
    · exact leaves_underLock _

/-! ## Fetch -/

theorem leaves_onMintFailure (cause : Option Fault) :
    Leaves libraries party (onMintFailure party cause) :=
  .bind leaves_checks fun _ => .done _

theorem leaves_fetchLoop (client : Client) (turns : Nat) (record : Record)
    (sessionRetries providerRetries : Nat) (requestAuthRetry : Bool) :
    Leaves libraries party (fetchLoop libraries party client turns record sessionRetries
      providerRetries requestAuthRetry) := by
  induction turns generalizing record sessionRetries providerRetries requestAuthRetry with
  | zero => exact .stuck
  | succ turns ih =>
    refine .bind leaves_request fun response => ?_
    split
    · split
      · exact .done _
      · exact .bind leaves_checks fun _ => ih _ _ _ _
    · split
      · refine .bind (leaves_underLock _) fun found => ?_
        split
        · split
          · exact .done _
          · exact ih _ _ _ _
        · exact .done _
      · dsimp only
        split
        · exact .done _
        · refine .bind (leaves_underLock _) fun heeded => ?_
          split
          · exact ih _ _ _ _
          · refine .bind (leaves_bootstrap client turns) fun url => ?_
            split
            · exact .done _
            · refine .bind (leaves_underLock _) fun found => ?_
              split
              · split
                · exact ih _ _ _ _
                · exact .done _
              · exact .done _

theorem leaves_fetchWith (client : Client) (turns : Nat) (record : Record) :
    Leaves libraries party (fetchWith libraries party client turns record) := by
  refine .bind (leaves_underLock _) fun due => ?_
  split
  · exact leaves_fetchLoop client turns record 0 0 false
  · refine .bind (.outcome (leaves_refresh client turns)) fun _ => ?_
    refine .bind leaves_checks fun _ => .bind (leaves_underLock _) fun latest => ?_
    split
    · exact leaves_fetchLoop client turns _ 0 0 false
    · refine .bind (leaves_bootstrap client turns) fun url => ?_
      split
      · exact .fails _
      · exact .done _

theorem leaves_signedFetch (client : Client) (turns : Nat) :
    Leaves libraries party (signedFetch libraries party client turns) := by
  refine .bind leaves_checks fun _ => .bind (leaves_underLock _) fun session => ?_
  split
  · refine .bind (.outcome (leaves_bootstrap client turns)) fun outcome => ?_
    split
    · exact leaves_onMintFailure _
    · split
      · exact .fails _
      · exact .done _
  · refine .bind (.outcome (leaves_bootstrap client turns)) fun outcome => ?_
    split
    · exact leaves_onMintFailure _
    · split
      · exact .done _
      · refine .bind (leaves_underLock _) fun found => ?_
        split
        · exact leaves_onMintFailure _
        · exact leaves_fetchWith client turns _
  · exact leaves_fetchWith client turns _

end LosslessMusic.Extensions.SignedSession
