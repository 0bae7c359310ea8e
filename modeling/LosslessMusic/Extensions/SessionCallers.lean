import LosslessMusic.Extensions.SessionFaults
import LosslessMusic.Extensions.SessionGrants

/-!
# Callers and the errors of others

Bootstrap and refresh adopt what their leader comes to, the exchange does not. In runs in which
nobody waits for a flight whose leader's check has failed, the error of a check stays with its
caller.
-/

namespace LosslessMusic.Extensions.SignedSession

open Transition

variable {libraries : Libraries} {heeds : Nat → Kind → Bool} {party : Nat} {α γ : Type}

/-! ## Landing -/

theorem told_release {shared : Shared} (told : Told shared) (kind : Kind) :
    Told (shared.release kind) where
  faults := told.faults
  slots other id taken := by
    by_cases same : other = kind
    · subst same
      simp only [Shared.release, Function.update_self] at taken
      cases taken
    · simp only [Shared.release, Function.update_of_ne same] at taken
      exact told.slots other id taken

theorem leaving_release (other : Nat) (shared : Shared) (kind : Kind) :
    Leaving other shared (shared.release kind) :=
  { Leaving.refl other shared with }

variable {kind : Kind} {start now : Shared}

theorem land_checked {flight : Nat}
    {settled : Shared × Except Fault α} (opens : Opens party kind flight start now)
    (checked : Checked party now settled) (told : Told now) :
    Told (Shared.land kind flight settled).1 ∧
      (∀ other, other ≠ party → Leaving other now (Shared.land kind flight settled).1) ∧
      Holds party start (Shared.land kind flight settled).1 ∧
      ∀ fault, settled.2 = .error fault → Mine party fault (Shared.land kind flight settled).1 := by
  have later := opens.later checked.holds
  have released : Opens party kind flight start (settled.1.release kind) :=
    ⟨later.held, later.first, later.here⟩
  refine ⟨told_finish (told_release (checked.told told) kind) released fun _ fault same => ?_,
    fun other different => ?_, released.finish _, fun fault same => (checked.mine fault same).finish⟩
  · refine checked.mine fault ?_
    cases ended : settled.2 with
    | ok value =>
      rw [ended] at same
      cases same
    | error error =>
      rw [ended] at same
      exact congrArg Except.error (Except.error.inj same)
  · exact (checked.others other different).trans
      ((leaving_release other _ kind).trans (leaving_finish _ released different))

theorem telling_led {flight : Nat} {work : Act γ}
    {settle : Except Fault γ → Shared → Answer → Shared × Except Fault α}
    (opens : Opens party kind flight start now) (fair : Fair heeds party work)
    (settles : ∀ outcome shared answer,
      (∀ fault, outcome = .error fault → Mine party fault shared) →
        Checked party shared (settle outcome shared answer)) :
    Telling heeds party (fun _ after => Holds party start after)
      (fun fault after => Holds party start after ∧ Mine party fault after)
      (work.outcome >>= fun outcome => Thread.locked fun shared answer =>
        Shared.land kind flight (settle outcome shared answer)) now := by
  refine Thread.Safe.bind ((fair.outcome now).mono (fun _ _ known => known) fun _ _ known =>
    ⟨opens.held.trans known.1, known.2⟩) fun outcome after known => ?_
  refine Thread.safe_locked fun found relied told answer _ => ?_
  have later := (opens.later known.1).later relied.holds
  have checked := settles outcome found answer fun fault same => (known.2 fault same).later relied
  have ⟨kept, others, held, mine⟩ := land_checked later checked told
  refine ⟨kept, others, ?_⟩
  split
  · exact held
  next fault ended => exact ⟨held, mine fault ended⟩

/-! ## Bootstrap and refresh -/

theorem telling_requestAgain (state : Shared) : Telling heeds party
      (fun result after => Holds party state after ∧
        ∀ fault, result = .error fault → Mine party fault after)
      (fun fault after => Holds party state after ∧ Mine party fault after)
      (requestAgain party) state := by
  refine Thread.Safe.bind (fair_request.outcome state) fun first after known => ?_
  split
  · exact ⟨known.1, nofun⟩
  · refine Thread.Safe.bind (fair_checks.after known.1) fun _ again held => ?_
    exact (fair_request.outcome again).mono
      (fun _ _ ended => ⟨held.trans ended.1, ended.2⟩) fun _ _ ended => ⟨held.trans ended.1, ended.2⟩

theorem fair_performBootstrap (client : Client) : Fair heeds party (performBootstrap party client) := by
  unfold performBootstrap
  refine .bind (.ofExcept _ fun _ => rfl) fun authority state => ?_
  refine Thread.Safe.bind (telling_requestAgain state) fun answered after known => ?_
  cases answered with
  | error fault => exact ⟨known.1, known.2 fault rfl⟩
  | ok response =>
    have rest : Fair heeds party (if response.success = false then
        (.fails ⟨"signed-session bootstrap " ++
          (if 500 ≤ response.status then "network request " else "") ++ "returned HTTP " ++
          toString response.status ++
          (if 0 < response.retryAfter then
            "; retry-after seconds: " ++ toString response.retryAfter else ""), none⟩ : Act Bootstrap)
      else do
        let record ← Thread.ofExcept (response.record.mapError fun message =>
          (⟨"decode signed-session bootstrap response: " ++ message, none⟩ : Fault))
        if record.sessionId ≠ "" ∧ record.sessionSecret ≠ "" ∧ record.expiresAt ≠ "" then
          pure (.session record)
        else
          let url ← Thread.ofExcept (response.challenge.mapError fun message =>
            (⟨message, none⟩ : Fault))
          pure (.challenge url)) := by
      split
      · exact .fails rfl
      · refine .bind (.ofExcept _ fun _ => rfl) fun record => ?_
        split
        · exact .done _
        · exact .bind (.ofExcept _ fun _ => rfl) fun _ => .done _
    exact rest.after known.1

/-- What a party knows of the flights behind its first section. -/
def Entered.Tells (heeds : Nat → Kind → Bool) (kind : Kind) (party : Nat) (start after : Shared) :
    Entered → Prop
  | .url _ => Holds party start after
  | .waits flight => Holds party start after ∧
      (heeds party kind = true → Awaits heeds party flight after)
  | .performs _ _ _ flight => Opens party kind flight start after

variable {action : Shared → Answer → Shared × Except Fault Entered}

theorem telling_entering (shares : kind ≠ .exchange)
    (entering : ∀ shared answer, Entering kind party shared (action shared answer))
    (state : Shared) :
    Telling heeds party (fun entered after => entered.Tells heeds kind party state after)
      (fun fault after => Holds party state after ∧ Mine party fault after)
      (Thread.locked action) state := by
  refine Thread.safe_locked fun now relied told answer _ => ?_
  have entered := entering now answer
  generalize action now answer = next at entered ⊢
  cases entered with
  | goes contents url =>
    have quiet := Quiet.contents now contents
    exact ⟨quiet.told told, fun other _ => quiet.leaving other,
      relied.holds.trans (quiet.leaving party).holds⟩
  | fails contents fault nobody =>
    have quiet := Quiet.contents now contents
    exact ⟨quiet.told told, fun other _ => quiet.leaving other,
      relied.holds.trans (quiet.leaving party).holds, .of_none nobody⟩
  | waits contents flight busy =>
    have quiet := (Quiet.contents now contents).told told
    refine ⟨⟨quiet.faults, quiet.slots⟩, fun other _ => ?_, relied.holds, fun heeded => ?_⟩
    · exact { Leaving.refl other now with
        waiting := fun _ member => List.mem_cons_of_mem _ member }
    · obtain ⟨known, here, rfl⟩ := told.slots kind flight busy
      exact ⟨List.mem_cons_self, known, here, shares, heeded⟩
  | takes contents record free =>
    have quiet := Quiet.contents now contents
    refine ⟨told_take kind _ _ (quiet.told told), fun other different => ?_, ?_⟩
    · exact (quiet.leaving other).trans (leaving_take _ _ _ _ different)
    · exact opens_take (now.withContents contents) kind _ _ relied.holds

/-- One turn of a bootstrap or a refresh: the first section, and what then is to be done. -/
theorem telling_turn (shares : kind ≠ .exchange)
    (entering : ∀ shared answer, Entering kind party shared (action shared answer))
    {continues : Entered → Act α} {rest : Act α}
    (goes : ∀ url, ∃ value, continues (.url url) = pure value)
    (waits : ∀ flight, continues (.waits flight) = wait party flight >>= fun _ => rest)
    (leads : ∀ record generation began flight start now, Opens party kind flight start now →
      Telling heeds party (fun _ after => Holds party start after)
        (fun fault after => Holds party start after ∧ Mine party fault after)
        (continues (.performs record generation began flight)) now)
    (again : ∀ state, Telling heeds party (fun _ after => Holds party state after)
      (fun fault after => Holds party state after ∧
        (heeds party kind = true → Mine party fault after)) rest state)
    (state : Shared) :
    Telling heeds party (fun _ after => Holds party state after)
      (fun fault after => Holds party state after ∧
        (heeds party kind = true → Mine party fault after))
      (checks party >>= fun _ => Thread.locked action >>= continues) state := by
  refine Thread.Safe.bind ((fair_checks state).mono (fun _ _ => id) fun _ _ known =>
    ⟨known.1, fun _ => known.2⟩) fun _ middle before => ?_
  refine Thread.Safe.bind ((telling_entering shares entering middle).mono (fun _ _ => id)
    fun _ _ known => ⟨before.trans known.1, fun _ => known.2⟩) fun entered after known => ?_
  cases entered with
  | url url =>
    obtain ⟨value, same⟩ := goes url
    rw [same]
    exact before.trans known
  | waits flight =>
    rw [waits flight]
    have held := before.trans known.1
    refine Thread.Safe.bind ((telling_wait flight after).mono (fun _ _ => id)
      fun fault _ ended => ⟨held.trans ended.1, fun heeded => ended.2 (known.2 heeded)⟩)
      fun _ later ended => ?_
    exact (again later).mono (fun _ _ => (held.trans ended).trans) fun _ _ last =>
      ⟨(held.trans ended).trans last.1, last.2⟩
  | performs record generation began flight =>
    exact (leads record generation began flight middle after known).mono
      (fun _ _ => before.trans) fun _ _ ended => ⟨before.trans ended.1, fun _ => ended.2⟩

/-- Whoever heeds a bootstrap gets no foreign error from it. -/
theorem fair_bootstrap (heeded : heeds party .bootstrap = true) (client : Client) (turns : Nat) :
    Fair heeds party (bootstrap libraries party client turns) := by
  intro state
  suffices telling : ∀ state, Telling heeds party (fun _ after => Holds party state after)
      (fun fault after => Holds party state after ∧
        (heeds party .bootstrap = true → Mine party fault after))
      (bootstrap libraries party client turns) state from
    (telling state).mono (fun _ _ => id) fun _ _ known => ⟨known.1, known.2 heeded⟩
  induction turns with
  | zero => exact fun _ => Thread.safe_stuck
  | succ turns ih =>
    refine telling_turn (by decide) (fun shared answer => entering_bootstrap client shared answer)
      (fun url => ⟨url, rfl⟩) (fun _ => rfl) ?_ ih
    exact fun record generation began flight start now opens =>
      telling_led opens (fair_performBootstrap client) fun _ _ _ => settleBootstrap_checked

theorem telling_refresh (client : Client) (turns : Nat) (state : Shared) :
    Telling heeds party (fun _ after => Holds party state after)
      (fun fault after => Holds party state after ∧
        (heeds party .refresh = true → Mine party fault after))
      (refresh libraries party client turns) state := by
  induction turns generalizing state with
  | zero => exact Thread.safe_stuck
  | succ turns ih =>
    refine telling_turn (by decide) (fun shared answer => entering_refresh client shared answer)
      (fun _ => ⟨(), rfl⟩) (fun _ => rfl) ?_ ih state
    exact fun record generation began flight start now opens =>
      telling_led opens fair_request fun _ _ _ => settleRefresh_checked

/-- What only looks at the record and perhaps changes it. -/
theorem fair_loaded {client : Client}
    {next : Contents → Record → Answer → Contents × Except Fault α}
    (nobody : ∀ contents record answer fault, (next contents record answer).2 = .error fault →
      fault.origin = none) :
    Fair heeds party (underLock fun contents answer =>
      match load client answer contents with
      | (contents, .error fault) => (contents, .error fault)
      | (contents, .ok record) => next contents record answer) := by
  refine fair_underLock fun contents answer fault ended => ?_
  split at ended
  next failed =>
    cases ended
    exact load_nobody failed
  · exact nobody _ _ _ _ ended

theorem fair_preflight (heeded : heeds party .bootstrap = true) (client : Client) (turns : Nat) :
    Fair heeds party (preflight libraries party client turns) := by
  refine .bind fair_checks fun _ => .bind (fair_loaded fun _ _ _ _ => nofun) fun ready => ?_
  split
  · exact .done _
  · refine .bind (fair_bootstrap heeded client turns) fun url => ?_
    split
    · exact .done _
    · refine fair_loaded fun contents record answer fault ended => ?_
      split at ended
      · cases ended
      · cases ended
        rfl

/-! ## Exchange -/

theorem telling_enterExchange (began : Nat) (client : Client) (grantHash : String) (turns : Nat)
    (state : Shared) :
    Telling heeds party (fun flight after => Opens party .exchange flight state after)
      (fun fault after => Holds party state after ∧ Mine party fault after)
      (enterExchange party began client grantHash turns) state := by
  induction turns generalizing state with
  | zero => exact Thread.safe_stuck
  | succ turns ih =>
    refine Thread.Safe.bind (fair_checks state) fun _ middle before => ?_
    refine Thread.Safe.bind (?_ : Telling heeds party
      (fun (entered : Nat × Bool) after => Holds party state after ∧
        (entered.2 = true → Opens party .exchange entered.1 state after)) _ _ middle)
      fun entered after known => ?_
    · refine Thread.safe_locked fun now relied told answer _ => ?_
      have held := before.trans relied.holds
      split
      next flight busy =>
        refine ⟨⟨told.faults, told.slots⟩, fun other _ => ?_, held, nofun⟩
        exact { Leaving.refl other now with
          waiting := fun _ member => List.mem_cons_of_mem _ member }
      next free =>
        have opens := opens_take now .exchange began (.entering client grantHash) held
        exact ⟨told_take _ _ _ told, fun other different => leaving_take _ _ _ _ different,
          opens.held, fun _ => opens⟩
    · obtain ⟨flight, own⟩ := entered
      dsimp only
      split
      next mine => exact known.2 mine
      · refine Thread.Safe.bind (Thread.Safe.outcome (telling_wait flight after))
          fun result later ended => ?_
        have held : Holds party after later := by
          cases result with
          | ok => exact ended
          | error => exact ended.1
        have since := known.1.trans held
        refine Thread.Safe.bind (fair_checks.after since) fun _ last checked => ?_
        exact (ih last).mono (fun _ _ opens => opens.since checked)
          fun _ _ broken => ⟨checked.trans broken.1, broken.2⟩

theorem fair_exchangeRequests (attempts : Nat) :
    Fair heeds party (exchangeRequests party attempts) := by
  induction attempts with
  | zero => exact .fails rfl
  | succ attempts ih =>
    refine .bind fair_request fun response => ?_
    split
    · exact .bind fair_checks fun _ => ih
    · split
      · exact .fails rfl
      · exact .ofExcept _ fun _ => rfl

theorem enterOwned_checked (client : Client) (generation : Nat) (grantHash : String)
    (shared : Shared) (answer : Answer) :
    Checked party shared (enterOwned libraries party client generation grantHash shared answer) := by
  unfold enterOwned
  split
  · exact .of_mine (.of_none rfl)
  · split
    next failed =>
      refine .of_quiet (.contents _ _) fun fault same => ?_
      cases same
      exact load_nobody failed
    · split
      · exact .of_quiet ⟨rfl, rfl, rfl⟩ nofun
      · exact .of_quiet ⟨rfl, rfl, rfl⟩ nofun

theorem settleExchange_checked (client : Client) (generation began : Nat) (grantHash : String)
    (base fetched : Record) (shared : Shared) (answer : Answer) :
    Checked party shared
      (settleExchange libraries party client generation began grantHash base fetched shared
        answer) := by
  unfold settleExchange
  split
  · exact .of_mine (.of_none rfl)
  · split
    next failed =>
      refine .of_quiet (.contents _ _) fun fault same => ?_
      cases same
      exact load_nobody failed
    · dsimp only
      split
      · exact .of_quiet ⟨rfl, rfl, rfl⟩ nofun
      · split
        · refine .of_quiet (.contents _ _) fun fault same => ?_
          cases same
          rfl
        · exact .of_quiet ⟨rfl, rfl, rfl⟩ nofun

theorem fair_exchangeOwned (client : Client) (generation began : Nat) (grant : String) :
    Fair heeds party (exchangeOwned libraries party client generation began grant) := by
  unfold exchangeOwned
  refine .bind (.checked (enterOwned_checked client generation _)) fun found => ?_
  split
  · exact .done _
  · refine .bind (.ofExcept _ fun _ => rfl) fun _ => ?_
    refine .bind (fair_exchangeRequests 3) fun fetched => ?_
    split
    · exact .fails rfl
    · refine .bind (.checked fun shared answer => ?_) fun _ =>
        .checked (settleExchange_checked client generation began _ _ fetched)
      have checked := shared.checked party answer
      split
      next same =>
        rw [same] at checked
        exact checked.failed
      next same =>
        rw [same] at checked
        exact checked.trans (.of_quiet ⟨rfl, rfl, rfl⟩ nofun)

theorem fair_exchange (client : Client) (grant : String) (turns : Nat) :
    Fair heeds party (exchange libraries party client grant turns) := by
  refine .bind (.checked fun shared _ => .of_quiet (.refl shared) nofun) fun (generation, began) => ?_
  intro state
  refine Thread.Safe.bind (telling_enterExchange _ _ _ _ state) fun flight after opens => ?_
  refine Thread.Safe.bind (((fair_exchangeOwned client generation began grant).outcome after).mono
    (fun _ _ => id) fun _ _ known => ⟨opens.held.trans known.1, known.2⟩) fun result now known => ?_
  have later := opens.later known.1
  refine Thread.Safe.bind (?_ : Telling heeds party
    (fun _ after => Opens party .exchange flight state after ∧
      ∀ fault, result = .error fault → Mine party fault after) _ _ now) fun _ last ended => ?_
  · refine Thread.safe_locked fun found relied told answer _ => ?_
    have still := later.later relied.holds
    have released := leaving_release party found .exchange
    exact ⟨told_release told .exchange, fun other _ => leaving_release other found .exchange,
      still.later released.holds, fun fault same => (known.2 fault same).later (relied.trans released)⟩
  · refine Thread.safe_locked fun found relied told answer _ => ?_
    have still := ended.1.later relied.holds
    refine ⟨told_finish told still fun other => absurd rfl other,
      fun other different => leaving_finish result still different, ?_⟩
    cases result with
    | ok => exact still.finish _
    | error fault => exact ⟨still.finish _, ((ended.2 fault rfl).later relied).finish⟩

theorem fair_completeGrant (client : Client) (grant : String) (turns : Nat) :
    Fair heeds party (completeGrant libraries party client grant turns) := by
  refine .bind (.checked fun shared answer => ?_) fun _ => ?_
  · split
    · exact .of_mine (.of_none rfl)
    · split
      · exact .of_quiet ⟨rfl, rfl, rfl⟩ nofun
      · exact .of_quiet (.refl shared) nofun
  · refine .bind (.checked fun shared answer => ?_) fun grant => ?_
    · split
      · exact .of_mine (.of_none rfl)
      · exact .of_quiet (.refl shared) nofun
    · refine .bind (fair_exchange client grant turns) fun _ => .checked fun shared answer => ?_
      split
      · exact .of_quiet ⟨rfl, rfl, rfl⟩ nofun
      · exact .of_quiet (.refl shared) nofun

theorem fair_clear (client : Client) : Fair heeds party (clear client) := by
  refine .checked fun shared answer => ?_
  split
  · exact .of_mine (.of_none rfl)
  · split
    next failed =>
      refine .of_quiet (.contents _ _) fun fault same => ?_
      cases same
      exact load_nobody failed
    · split
      · refine .of_quiet (.contents _ _) fun fault same => ?_
        cases same
        rfl
      · exact .of_quiet ⟨rfl, rfl, rfl⟩ nofun

/-! ## Fetch -/

/-- The error of a check is of the party's own. -/
def Fault.Own (party : Nat) (fault : Fault) : Prop :=
  ∀ origin, fault.origin = some origin → origin = party

/-- A challenge stands for no error of another one's check. -/
def Reply.Own (party : Nat) : Reply → Prop
  | .verification _ (some fault) => fault.Own party
  | _ => True

/-- A fair thread whose reply stands for no foreign error. -/
def Answers (heeds : Nat → Kind → Bool) (party : Nat) (thread : Act Reply) : Prop :=
  ∀ state, Telling heeds party (fun reply after => Holds party state after ∧ reply.Own party)
    (fun fault after => Holds party state after ∧ Mine party fault after) thread state

namespace Answers

theorem done {reply : Reply} (own : reply.Own party) : Answers heeds party (.done reply) :=
  fun _ => ⟨fun _ _ => id, own⟩

theorem fails {fault : Fault} (nobody : fault.origin = none) :
    Answers heeds party (.fails fault) := fun _ => ⟨fun _ _ => id, .of_none nobody⟩

theorem after {thread : Act Reply} (answers : Answers heeds party thread)
    (held : Holds party start now) :
    Telling heeds party (fun reply after => Holds party start after ∧ reply.Own party)
      (fun fault after => Holds party start after ∧ Mine party fault after) thread now :=
  (answers now).mono (fun _ _ known => ⟨held.trans known.1, known.2⟩) fun _ _ known =>
    ⟨held.trans known.1, known.2⟩

theorem bind {first : Act γ} {next : γ → Act Reply} (fair : Fair heeds party first)
    (continues : ∀ value, Answers heeds party (next value)) :
    Answers heeds party (first >>= next) := by
  intro state
  exact Thread.Safe.bind (fair state) fun value _ held => (continues value).after held

theorem bindOutcome {first : Act γ} {next : Except Fault γ → Act Reply}
    (fair : Fair heeds party first) (continues : ∀ value, Answers heeds party (next (.ok value)))
    (breaks : ∀ fault : Fault, fault.Own party → Answers heeds party (next (.error fault))) :
    Answers heeds party (first.outcome >>= next) := by
  intro state
  refine Thread.Safe.bind (fair.outcome state) fun result _ known => ?_
  cases result with
  | ok value => exact (continues value).after known.1
  | error fault =>
    exact (breaks fault fun origin same => (known.2 fault rfl origin same).1).after known.1

end Answers

theorem answers_onMintFailure {cause : Option Fault}
    (own : ∀ fault, cause = some fault → fault.Own party) :
    Answers heeds party (onMintFailure party cause) := by
  refine .bind fair_checks fun _ => .done ?_
  cases cause with
  | none => exact trivial
  | some fault => exact own fault rfl

theorem fair_findOther (client : Client) (session : Record) :
    Fair heeds party (underLock (findOther libraries client session)) := by
  refine fair_loaded fun contents record answer fault ended => ?_
  split at ended <;> cases ended

theorem fair_heedGateway (client : Client) (session : Record) (retries : Nat) (action : String) :
    Fair heeds party (underLock (heedGateway libraries client session retries action)) := by
  refine fair_loaded fun contents record answer fault ended => ?_
  dsimp only at ended
  split at ended
  · split at ended <;> cases ended
    rfl
  · split at ended
    · split at ended <;> cases ended
      rfl
    · split at ended <;> cases ended

theorem fair_findUnblocked (client : Client) :
    Fair heeds party (underLock (findUnblocked libraries client)) := by
  refine fair_loaded fun contents record answer fault ended => ?_
  split at ended <;> cases ended

theorem fair_findSession (client : Client) :
    Fair heeds party (underLock (findSession libraries client)) := by
  refine fair_loaded fun contents record answer fault ended => ?_
  split at ended
  · cases ended
  · split at ended
    · cases ended
    · split at ended <;> cases ended

theorem answers_fetchLoop (heeded : heeds party .bootstrap = true) (client : Client)
    (turns : Nat) (record : Record) (sessionRetries providerRetries : Nat)
    (requestAuthRetry : Bool) :
    Answers heeds party (fetchLoop libraries party client turns record sessionRetries
      providerRetries requestAuthRetry) := by
  induction turns generalizing record sessionRetries providerRetries requestAuthRetry with
  | zero => exact fun _ => Thread.safe_stuck
  | succ turns ih =>
    refine .bind fair_request fun response => ?_
    split
    · split
      · exact .done trivial
      · exact .bind fair_checks fun _ => ih _ _ _ _
    · split
      · refine .bind (fair_findOther client record) fun found => ?_
        split
        · split
          · exact .done trivial
          · exact ih _ _ _ _
        · exact .done trivial
      · dsimp only
        split
        · exact .done trivial
        · refine .bind (fair_heedGateway client record _ _) fun found => ?_
          split
          · exact ih _ _ _ _
          · refine .bind (fair_bootstrap heeded client turns) fun url => ?_
            split
            · exact .done trivial
            · refine .bind (fair_findOther client record) fun found => ?_
              split
              · split
                · exact ih _ _ _ _
                · exact .done trivial
              · exact .done trivial

/-- A fetch goes on after a refresh that has failed, whose error it does not heed. -/
theorem answers_fetchWith (heeded : heeds party .bootstrap = true) (client : Client)
    (turns : Nat) (record : Record) :
    Answers heeds party (fetchWith libraries party client turns record) := by
  refine .bind (fair_underLock fun _ _ => nofun) fun due => ?_
  split
  · exact answers_fetchLoop heeded client turns record 0 0 false
  · intro state
    refine Thread.Safe.bind (Thread.Safe.outcome (telling_refresh client turns state))
      fun result after ended => ?_
    have held : Holds party state after := by
      cases result with
      | ok => exact ended
      | error => exact ended.1
    refine Answers.after (.bind fair_checks fun _ => ?_) held
    refine .bind (fair_findUnblocked client) fun found => ?_
    split
    · exact answers_fetchLoop heeded client turns _ 0 0 false
    · refine .bind (fair_bootstrap heeded client turns) fun url => ?_
      split
      · exact .fails rfl
      · exact .done trivial

theorem answers_signedFetch (heeded : heeds party .bootstrap = true) (client : Client)
    (turns : Nat) : Answers heeds party (signedFetch libraries party client turns) := by
  have failure (fault : Fault) (own : fault.Own party) :
      Answers heeds party (onMintFailure party (some fault)) := by
    refine answers_onMintFailure fun cause same => ?_
    cases same
    exact own
  refine .bind fair_checks fun _ => .bind (fair_findSession client) fun found => ?_
  split
  · refine .bindOutcome (fair_bootstrap heeded client turns) (fun url => ?_) failure
    dsimp only
    split
    · exact .fails rfl
    · exact .done trivial
  · refine .bindOutcome (fair_bootstrap heeded client turns) (fun url => ?_) failure
    dsimp only
    split
    · exact .done trivial
    · refine .bind (fair_findUnblocked client) fun latest => ?_
      split
      · exact answers_onMintFailure nofun
      · exact answers_fetchWith heeded client turns _
  · exact answers_fetchWith heeded client turns _

/-! ## Every run -/

/-- Whether a call fails if it waits for a flight that fails. A fetch goes on without its refresh,
an exchange looks again. -/
def Call.adopts : Call → Kind → Bool
  | _, .exchange => false
  | .signedFetch, .refresh => false
  | _, _ => true

/-- Whether the call of a party fails so. -/
def adopts (calls : List (Client × Nat × Call)) (party : Nat) (kind : Kind) : Bool :=
  (calls[party]?).all fun (_, _, call) => call.adopts kind

theorem answers_thread {call : Call} (heeded : ∀ kind, heeds party kind = call.adopts kind)
    (client : Client) (turns : Nat) :
    Answers heeds party (call.thread libraries party client turns) := by
  cases call with
  | preflight =>
    exact .bind (fair_preflight (heeded .bootstrap) client turns) fun _ => .done trivial
  | bootstrap =>
    exact .bind (fair_bootstrap (heeded .bootstrap) client turns) fun _ => .done trivial
  | refresh =>
    refine .bind (fun state => ?_) fun _ => .done trivial
    exact (telling_refresh client turns state).mono (fun _ _ => id) fun _ _ known =>
      ⟨known.1, known.2 (heeded .refresh)⟩
  | completeGrant grant =>
    exact .bind (fair_completeGrant client grant turns) fun _ => .done trivial
  | signedFetch => exact answers_signedFetch (heeded .bootstrap) client turns
  | clear => exact .bind (fair_clear client) fun _ => .done trivial

variable {calls : List (Client × Nat × Call)}

theorem telling_begins {system : System} (begins : Begins libraries calls system) :
    system.Safe Told Leaving
      (fun party shared answer => undisturbed (adopts calls) party shared answer = true)
      (fun party reply _ => reply.Own party) (fun party fault _ => fault.Own party) where
  holds := by
    refine ⟨fun flight member => ?_, fun kind id taken => ?_⟩
    · rw [begins.flights] at member
      cases member
    · rw [begins.idle kind] at taken
      cases taken
  safe party thread here := by
    rw [begins.threads, List.getElem?_mapIdx] at here
    obtain ⟨⟨client, turns, call⟩, called, rfl⟩ := Option.map_eq_some_iff.mp here
    have heeded (kind : Kind) : adopts calls party kind = call.adopts kind := by
      rw [adopts, called]
      rfl
    exact (answers_thread heeded client turns system.shared).mono (fun _ _ known => known.2)
      fun _ _ known origin same => (known.2 origin same).1

/-- As long as nobody goes on that waits for a bootstrap or a refresh whose leader's check has
failed, no caller fails, or is sent to verify, by the check of another one. -/
theorem faults_kept {system : System} (reachable : (machine libraries calls).Reachable
      (fun system turn => undisturbed (adopts calls) turn.party system.shared
        turn.answer = true) system) (party : Nat) :
    (∀ fault, system.threads[party]? = some (.fails fault) → fault.Own party) ∧
      ∀ url fault, system.threads[party]? = some (.done (.verification url (some fault))) →
        fault.Own party := by
  have reliable : Threads.Reliable Leaving (fun party (reply : Reply) (_ : Shared) => reply.Own party)
      (fun party (fault : Fault) _ => fault.Own party) :=
    ⟨Leaving.refl, fun _ _ _ _ => Leaving.trans, fun _ _ _ _ own _ => own, fun _ _ _ _ own _ => own⟩
  have safe := Threads.safe_of_reachable reliable (fun _ => telling_begins) reachable
  exact ⟨fun fault ended => safe.safe party _ ended, fun url fault ended =>
    safe.safe party _ ended⟩

/-! ## A cancelled leader -/

namespace Example

def failure (system : System) (party : Nat) : Option Fault :=
  match system.threads[party]? with
  | some (.fails fault) => some fault
  | _ => none

/-- The error for which a party is sent to verify. -/
def verification (system : System) (party : Nat) : Option Fault :=
  match system.threads[party]? with
  | some (.done (.verification _ cause)) => cause
  | _ => none

/-- The check of a party does not fail, and its requests succeed. -/
def lasting (party : Nat) (turn : Turn Answer) : Bool :=
  turn.party ≠ party ||
    (!turn.answer.closed && turn.answer.check.isNone && turn.answer.response.isOk)

def cancelled : Answer := { calm with check := some "cancelled" }

def served : Answer := fetches (session "s1" "k1")

/-- Two downloads without a session. -/
def downloads : List (Client × Nat × Call) :=
  [(client, 2, .preflight), (client, 2, .signedFetch)]

end Example

/-- A download that is cancelled while it waits for the session of another one. -/
theorem faults_kept_cancelled : ∃ system : System, ∃ fault : Fault,
    Example.returned system 0 = true ∧ Example.failure system 1 = some fault ∧
      fault.origin = some 1 := by
  let calls : List (Client × Nat × Call) := [(Example.client, 2, .bootstrap),
    (Example.client, 2, .bootstrap)]
  let turns : List (Turn Answer) := [⟨0, Example.calm⟩, ⟨0, Example.calm⟩, ⟨1, Example.calm⟩,
    ⟨1, Example.calm⟩, ⟨1, Example.cancelled⟩, ⟨0, Example.served⟩, ⟨0, Example.calm⟩]
  have runs : ((machine Example.table calls).run (Example.start .empty calls) turns).any
      (fun system => Example.returned system 0 &&
        (Example.failure system 1).any fun fault => fault.origin.isSome) = true := by
    decide +kernel
  have meets : (machine Example.table calls).runMeets
      (fun system turn => undisturbed (adopts calls) turn.party system.shared turn.answer)
      (Example.start .empty calls) turns = true := by
    decide +kernel
  obtain ⟨system, reached, checked⟩ :=
    (machine Example.table calls).exists_reachable_of_runMeets _ (Example.begins _ _) meets runs
  obtain ⟨returned, failed⟩ := Bool.and_eq_true_iff.mp checked
  obtain ⟨fault, here, known⟩ := (Option.any_eq_true _ _).mp failed
  obtain ⟨origin, from_⟩ := Option.isSome_iff_exists.mp known
  refine ⟨system, fault, returned, here, ?_⟩
  unfold Example.failure at here
  split at here
  next other ended =>
    obtain rfl := Option.some.inj here
    rw [from_, (faults_kept reached 1).1 other ended origin from_]
  next => cases here

/-- A download that is never cancelled is sent to verify, because another one is cancelled whose
session it waits for. -/
theorem faults_adopted : ∃ system : System, (machine Example.table Example.downloads).Reachable
      (fun _ turn => Example.lasting 1 turn = true) system ∧
      Example.verification system 1 = some ⟨"cancelled", some 0⟩ := by
  let turns : List (Turn Answer) := [⟨0, Example.calm⟩, ⟨0, Example.calm⟩, ⟨0, Example.calm⟩,
    ⟨0, Example.calm⟩, ⟨1, Example.served⟩, ⟨1, Example.served⟩, ⟨1, Example.served⟩,
    ⟨1, Example.served⟩, ⟨0, Example.cancelled⟩, ⟨0, Example.cancelled⟩, ⟨0, Example.calm⟩,
    ⟨1, Example.served⟩, ⟨1, Example.served⟩]
  have runs : ((machine Example.table Example.downloads).run
      (Example.start .empty Example.downloads) turns).any
      (fun system => decide (Example.verification system 1 = some ⟨"cancelled", some 0⟩)) = true := by
    decide +kernel
  have meets : (machine Example.table Example.downloads).runMeets
      (fun _ turn => Example.lasting 1 turn) (Example.start .empty Example.downloads) turns = true := by
    decide +kernel
  obtain ⟨system, reached, checked⟩ :=
    (machine Example.table Example.downloads).exists_reachable_of_runMeets _ (Example.begins _ _)
      meets runs
  exact ⟨system, reached, of_decide_eq_true checked⟩

end LosslessMusic.Extensions.SignedSession
