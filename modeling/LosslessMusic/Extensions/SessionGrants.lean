import LosslessMusic.Extensions.SessionThreads
import Mathlib.Data.List.Basic

/-!
# Grants of signed sessions

An exchange has one flight from the grant to the stored session, and leaves a completion in the
books when it succeeds. With it all calls keep the books, in every run.
-/

namespace LosslessMusic.Extensions.SignedSession

open Transition

variable {libraries : Libraries} {party : Nat}

/-! ## Stages -/

/-- The operations after an exchange has come to a section. -/
def Operation.staged (party : Nat) (stage : Stage) (operation : Operation) : Operation :=
  if operation.kind = .exchange ∧ operation.party = party then { operation with stage }
  else operation

theorem Operation.staged_same (stage : Stage) (operation : Operation) :
    (operation.staged party stage).kind = operation.kind ∧
      (operation.staged party stage).flight = operation.flight ∧
      (operation.staged party stage).began = operation.began := by
  unfold Operation.staged
  split <;> exact ⟨rfl, rfl, rfl⟩

theorem Operation.staged_other {stage : Stage} {operation : Operation}
    (other : operation.kind = .exchange → operation.party ≠ party) :
    operation.staged party stage = operation := by
  refine if_neg fun both => ?_
  exact other both.1 both.2

theorem Sound.stage {shared : Shared} (sound : Sound shared) (stage : Stage) :
    Sound (shared.stage party stage) where
  generation := sound.generation
  slots kind := by
    refine Eq.trans ?_ (sound.slots kind)
    change ((shared.performing.map (Operation.staged party stage)).filter _).length = _
    rw [List.filter_map, List.length_map]
    refine congrArg List.length (List.filter_congr fun operation _ => ?_)
    rw [Function.comp_apply, (operation.staged_same stage).1]
  flown operation member := by
    obtain ⟨old, there, rfl⟩ := List.mem_map.mp member
    change shared.slot (old.staged party stage).kind = some (old.staged party stage).flight
    rw [(old.staged_same stage).1, (old.staged_same stage).2.1]
    exact sound.flown old there
  dated operation member := by
    obtain ⟨old, there, rfl⟩ := List.mem_map.mp member
    change (old.staged party stage).began ≤ shared.epoch
    rw [(old.staged_same stage).2.2]
    exact sound.dated old there
  stores := sound.stores
  completions := sound.completions

theorem relies_stage (shared : Shared) (stage : Stage) {other : Nat} (different : other ≠ party) :
    Relies other shared (shared.stage party stage) where
  epoch := Nat.le_refl _
  performing operation member mine := by
    have same : operation.staged party stage = operation :=
      Operation.staged_other fun _ equal => different (mine.symm.trans equal)
    exact List.mem_map.mpr ⟨operation, member, same⟩
  completions _ member := member

/-- An exchange in flight. -/
def Exchanges (party flight began : Nat) (stage : Stage) (start now : Shared) : Prop :=
  Leads ⟨.exchange, flight, party, began, stage⟩ start now

section Exchanges

variable {flight began : Nat} {stage : Stage} {start now : Shared}

theorem Exchanges.comes (exchanges : Exchanges party flight began stage start now)
    (next : Stage) : Exchanges party flight began next start (now.stage party next) where
  relies := {
    epoch := exchanges.relies.epoch
    performing := fun operation member mine => by
      have same : operation.staged party next = operation :=
        Operation.staged_other fun kind _ => exchanges.first operation member mine kind
      exact List.mem_map.mpr ⟨operation, exchanges.relies.performing operation member mine, same⟩
    completions := exchanges.relies.completions }
  first := exchanges.first
  here := List.mem_map.mpr ⟨_, exchanges.here, if_pos ⟨rfl, rfl⟩⟩

theorem Exchanges.earlier {first : Shared} (exchanges : Exchanges party flight began stage start now)
    (relies : Relies party first start) : Exchanges party flight began stage first now where
  relies := relies.trans exchanges.relies
  first other member mine := exchanges.first other (relies.performing other member mine) mine
  here := exchanges.here

end Exchanges

/-! ## Exchange -/

theorem keeping_enterExchange {began : Nat} {client : Client} {grantHash : String} (turns : Nat)
    {state : Shared} (dated : began ≤ state.epoch) :
    Keeping libraries party (fun flight after =>
        Exchanges party flight began (.entering client grantHash) state after)
      (fun _ after => Relies party state after)
      (enterExchange party began client grantHash turns) state := by
  induction turns generalizing state with
  | zero => exact Thread.safe_stuck
  | succ turns ih =>
    refine Thread.Safe.bind (leaves_checks state) fun _ checked relied => ?_
    let middle (found : Nat × Bool) (after : Shared) : Prop :=
      Relies party state after ∧ (found.2 = true →
        Exchanges party found.1 began (.entering client grantHash) state after)
    refine Thread.Safe.bind (?_ : Keeping libraries party middle
      (fun _ after => Relies party state after) _ checked) fun found after known => ?_
    · refine Thread.safe_locked fun now later sound answer _ => ?_
      have whole := relied.trans later
      split
      next flight _ =>
        have kept := Keeps.waits now flight party
        exact ⟨kept.sound sound, fun other _ => kept.relies other, whole.trans (kept.relies party),
          fun same => by cases same⟩
      next free =>
        have taken : Exchanges party now.flights.length began (.entering client grantHash) state
            (now.take .exchange party began (.entering client grantHash)) :=
          leads_take sound free whole
        exact ⟨sound.take free _ _ _ (dated.trans whole.epoch),
          fun other _ => relies_take _ _ _ _ _, taken.relies, fun _ => taken⟩
    obtain ⟨flight, own⟩ := found
    dsimp only
    split
    next own => exact known.2 own
    next =>
      refine Thread.Safe.bind ((Leaves.outcome (leaves_wait flight)).after known.1)
        fun _ _ relied => ?_
      refine Thread.Safe.bind (leaves_checks.after relied) fun _ _ relied => ?_
      exact (ih (dated.trans relied.epoch)).mono
        (fun _ _ exchanges => exchanges.earlier relied) fun _ _ => relied.trans

/-- The exchange of a party has succeeded. -/
def Completed (party : Nat) (shared : Shared) : Prop :=
  ∃ completion ∈ shared.completions, completion.party = party

/-- An exchange in flight, at whatever section. -/
def Exchanging (party flight began : Nat) (start now : Shared) : Prop :=
  ∃ stage, Exchanges party flight began stage start now

theorem Exchanging.later {flight began : Nat} {start now later : Shared}
    (exchanging : Exchanging party flight began start now) (relies : Relies party now later) :
    Exchanging party flight began start later := by
  obtain ⟨stage, exchanges⟩ := exchanging
  exact ⟨stage, exchanges.later relies⟩

theorem Completion.Sound.spared {record : Record} {usable blocked : Bool}
    (isUsable : usable = true) (free : blocked = false) :
    Completion.Sound ⟨party, record, usable, blocked, none⟩ :=
  ⟨isUsable, .inr free⟩

theorem Completion.Sound.renewed {latest fetched : Record} {usable blocked : Bool}
    (isUsable : usable = true) :
    Completion.Sound ⟨party, latest.withSession fetched, usable, blocked, some fetched⟩ :=
  ⟨isUsable, .inl ⟨fetched, rfl, rfl, rfl, rfl⟩⟩

section Owned

variable {client : Client} {flight generation began : Nat} {grantHash : String} {start now : Shared}

theorem keeping_enterOwned
    (exchanges : Exchanges party flight began (.entering client grantHash) start now) :
    Keeping libraries party (fun base after =>
        Exchanging party flight began start after ∧ (base = none → Completed party after))
      (fun _ after => Exchanging party flight began start after)
      (Thread.locked (enterOwned libraries party client generation grantHash)) now := by
  refine Thread.safe_locked fun found relied sound answer allowed => ?_
  have entered := exchanges.later relied
  have careful := (of_careful allowed entered.here rfl).2
  unfold enterOwned
  split
  · exact ⟨sound, fun other _ => .refl _ _, _, entered⟩
  · split
    next contents fault _ =>
      have kept := Keeps.contents found contents
      exact ⟨kept.sound sound, fun other _ => kept.relies other, _,
        entered.later (kept.relies party)⟩
    next contents record loaded =>
      split
      next granted =>
        simp only [Stage.careful, loaded, granted, decide_true, Bool.and_self, Bool.true_and,
          Bool.not_eq_true'] at careful
        have bought : Completion.Sound ⟨party, record, record.usable libraries answer.now,
            contents.blocked libraries record, none⟩ := .spared granted.2 careful
        have kept := Keeps.complete found contents.unblocked bought
        exact ⟨kept.sound sound, fun other _ => kept.relies other,
          ⟨_, entered.later (kept.relies party)⟩, fun _ => ⟨_, List.mem_cons_self, rfl⟩⟩
      · have kept := Keeps.contents found contents
        refine ⟨(kept.sound sound).stage .under, fun other different => ?_, ⟨.under, ?_⟩, nofun⟩
        · exact (kept.relies other).trans (relies_stage _ _ different)
        · exact (Exchanges.comes (entered.later (kept.relies party)) .under)

theorem keeping_settleExchange {base fetched : Record} (dated : generation = began % 2 ^ 64)
    (exchanges : Exchanges party flight began (.storing client grantHash base fetched) start now) :
    Keeping libraries party
      (fun _ after => Exchanging party flight began start after ∧ Completed party after)
      (fun _ after => Exchanging party flight began start after)
      (Thread.locked (settleExchange libraries party client generation began grantHash base fetched))
      now := by
  refine Thread.safe_locked fun found relied sound answer allowed => ?_
  have entered := exchanges.later relied
  have careful := (of_careful allowed entered.here rfl).2
  unfold settleExchange
  split
  · exact ⟨sound, fun other _ => .refl _ _, _, entered⟩
  next current =>
    have epoch := sound.epoch_eq allowed entered.here rfl dated (not_not.mp current)
    split
    next contents fault _ =>
      have kept := Keeps.contents found contents
      exact ⟨kept.sound sound, fun other _ => kept.relies other, _,
        entered.later (kept.relies party)⟩
    next contents latest loaded =>
      simp only [Stage.careful, loaded] at careful
      dsimp only
      split
      next unchanged =>
        rw [if_pos unchanged, Bool.not_eq_true'] at careful
        have usable : latest.usable libraries answer.now = true :=
          (Bool.and_eq_true_iff.mp unchanged).1
        have bought : Completion.Sound ⟨party, latest, latest.usable libraries answer.now,
            contents.blocked libraries latest, none⟩ := .spared usable careful
        have kept := Keeps.complete found contents.unblocked bought
        exact ⟨kept.sound sound, fun other _ => kept.relies other,
          ⟨_, entered.later (kept.relies party)⟩, ⟨_, List.mem_cons_self, rfl⟩⟩
      next changed =>
        rw [if_neg changed] at careful
        split
        · have kept := Keeps.contents found contents
          exact ⟨kept.sound sound, fun other _ => kept.relies other, _,
            entered.later (kept.relies party)⟩
        · have same (usable : latest.usable libraries answer.now = true) :
              latest.sameSession base = true := by
            rw [keeps, usable, Bool.true_and, Bool.or_eq_true, not_or] at changed
            simpa using changed.2
          let granted : Contents :=
            { contents with record := latest.withSession fetched, completedGrant := grantHash }
          have stored : Stored.Sound ⟨.exchange, began, found.epoch, base, latest,
              latest.usable libraries answer.now, contents.blocked libraries latest,
              latest.withSession fetched⟩ := by
            refine ⟨epoch.symm, ?_⟩
            dsimp only
            exact fun usable _ => same usable
          have bought : Completion.Sound ⟨party, latest.withSession fetched,
              (latest.withSession fetched).usable libraries answer.now,
              granted.blocked libraries (latest.withSession fetched), some fetched⟩ :=
            .renewed careful
          have kept := (Keeps.store found granted stored).trans (.complete _ granted.unblocked bought)
          exact ⟨kept.sound sound, fun other _ => kept.relies other,
            ⟨_, entered.later (kept.relies party)⟩, ⟨_, List.mem_cons_self, rfl⟩⟩

theorem keeping_exchangeOwned {grant : String} (dated : generation = began % 2 ^ 64) (exchanges :
      Exchanges party flight began (.entering client (libraries.digest grant)) start now) :
    Keeping libraries party
      (fun _ after => Exchanging party flight began start after ∧ Completed party after)
      (fun _ after => Exchanging party flight began start after)
      (exchangeOwned libraries party client generation began grant) now := by
  refine Thread.Safe.bind (keeping_enterOwned exchanges) fun base after entered => ?_
  obtain ⟨exchanging, granted⟩ := entered
  cases base with
  | none => exact ⟨exchanging, granted rfl⟩
  | some base =>
    have flies {α : Type} {thread : Act α} (leaves : Leaves libraries party thread)
        {found : Shared} (exchanging : Exchanging party flight began start found) :
        Keeping libraries party (fun _ after => Exchanging party flight began start after)
          (fun _ after => Exchanging party flight began start after) thread found :=
      (leaves found).mono (fun _ _ => exchanging.later) fun _ _ => exchanging.later
    refine Thread.Safe.bind (flies (.ofExcept _) exchanging) fun _ _ exchanging => ?_
    refine Thread.Safe.bind (flies (leaves_exchangeRequests 3) exchanging)
      fun fetched middle exchanging => ?_
    split
    · exact exchanging
    · obtain ⟨stage, exchanges⟩ := exchanging
      let next : Stage := .storing client (libraries.digest grant) base fetched
      refine Thread.Safe.bind (?_ : Keeping libraries party
        (fun _ after => Exchanges party flight began next start after)
        (fun _ after => Exchanging party flight began start after) _ middle)
        fun _ _ exchanges => keeping_settleExchange dated exchanges
      refine Thread.safe_locked fun found relied sound answer _ => ?_
      have kept := Keeps.check found party answer
      have entered := (exchanges.later relied).later (kept.relies party)
      split
      next checked =>
        rw [checked] at kept entered
        exact ⟨kept.sound sound, fun other _ => kept.relies other, stage, entered⟩
      next checked =>
        rw [checked] at kept entered
        refine ⟨(kept.sound sound).stage _, fun other different => ?_, Exchanges.comes entered _⟩
        exact (kept.relies other).trans (relies_stage _ _ different)

end Owned

theorem Completed.later {before after : Shared} (completed : Completed party before)
    (relies : Relies party before after) : Completed party after := by
  obtain ⟨completion, member, mine⟩ := completed
  exact ⟨completion, relies.completions completion member, mine⟩

/-- An exchange gives its slot back, and then tells its result. -/
theorem keeping_landed {flight began : Nat} {result : Except Fault Unit} {start now : Shared}
    (exchanging : Exchanging party flight began start now)
    (granted : result = .ok () → Completed party now) :
    Keeping libraries party (fun _ after => Relies party start after ∧ Completed party after)
      (fun _ after => Relies party start after)
      (Thread.locked (fun shared _ => (shared.release .exchange, .ok ())) >>= fun (_ : Unit) =>
        Thread.locked fun shared _ => (shared.finish flight result, result)) now := by
  have released : Keeping libraries party
      (fun _ after => Relies party start after ∧ (result = .ok () → Completed party after))
      (fun _ after => Relies party start after)
      (Thread.locked fun shared _ => (shared.release .exchange, .ok ())) now := by
    refine Thread.safe_locked fun found relied sound answer _ => ?_
    obtain ⟨stage, entered⟩ := exchanging.later relied
    refine ⟨sound.release _, fun other different =>
      sound.relies_release entered.here different, Leads.release entered, fun succeeded => ?_⟩
    have completed : Completed party found := (granted succeeded).later relied
    exact completed
  refine Thread.Safe.bind released fun _ after landed => ?_
  refine Thread.safe_locked fun found relied sound answer _ => ?_
  have kept := Keeps.finish found flight result
  have whole := landed.1.trans (relied.trans (kept.relies party))
  refine ⟨kept.sound sound, fun other _ => kept.relies other, ?_⟩
  cases result with
  | ok value => exact ⟨whole, (landed.2 rfl).later (relied.trans (kept.relies party))⟩
  | error fault => exact whole

theorem keeping_exchange (client : Client) (grant : String) (turns : Nat) (state : Shared) :
    Keeping libraries party (fun _ after => Relies party state after ∧ Completed party after)
      (fun _ after => Relies party state after)
      (exchange libraries party client grant turns) state := by
  have dated : Keeping libraries party
      (fun found after => Relies party state after ∧ found.1 = found.2 % 2 ^ 64 ∧
        found.2 ≤ after.epoch) (fun _ after => Relies party state after)
      (Thread.locked fun shared _ => (shared, .ok (shared.clearGeneration, shared.epoch))) state :=
    Thread.safe_locked fun now relied sound answer _ =>
      ⟨sound, fun other _ => .refl _ _, relied, sound.generation, Nat.le_refl _⟩
  refine Thread.Safe.bind dated fun (generation, began) first known => ?_
  obtain ⟨relied, same, late⟩ := known
  refine Thread.Safe.bind ((keeping_enterExchange turns late).mono
    (fun _ _ exchanges => exchanges.earlier relied) fun _ _ => relied.trans)
    fun flight second exchanges => ?_
  refine Thread.Safe.bind (keeping_exchangeOwned same exchanges).outcome fun result third ended => ?_
  cases result with
  | ok value => exact keeping_landed ended.1 fun _ => ended.2
  | error fault => exact keeping_landed ended nofun

theorem leaves_setGrant (client : Client) (grant : String) :
    Leaves libraries party (setGrant client grant) := by
  refine .locked fun shared answer => ?_
  split
  · exact .refl _
  · split
    · exact { Keeps.refl shared with }
    · exact .refl _

theorem keeping_completeGrant (client : Client) (grant : String) (turns : Nat) (state : Shared) :
    Keeping libraries party (fun _ after => Relies party state after ∧ Completed party after)
      (fun _ after => Relies party state after)
      (completeGrant libraries party client grant turns) state := by
  refine Thread.Safe.bind (leaves_setGrant client grant state) fun _ _ relied => ?_
  refine Thread.Safe.bind ((?_ : Leaves libraries party _).after relied)
    fun grant middle relied => ?_
  · refine .locked fun shared _ => ?_
    split
    · exact .refl _
    · exact .refl _
  refine Thread.Safe.bind ((keeping_exchange client grant turns middle).mono
    (fun _ _ known => known) fun _ _ => relied.trans) fun _ after known => ?_
  refine Thread.safe_locked fun now later sound answer _ => ?_
  have whole := relied.trans (known.1.trans later)
  have completed : Completed party now := known.2.later later
  split
  · have kept (grants : List (String × String)) : Keeps now { now with grants } :=
      { Keeps.refl now with }
    exact ⟨(kept _).sound sound, fun other _ => (kept _).relies other,
      whole.trans ((kept _).relies party), completed⟩
  · exact ⟨sound, fun other _ => .refl _ _, whole, completed⟩

theorem leaves_clear (client : Client) : Leaves libraries party (clear client) := by
  intro state
  refine Thread.safe_locked fun now relied sound answer _ => ?_
  split
  · exact ⟨sound, fun other _ => .refl _ _, relied⟩
  · split
    next contents fault _ =>
      have kept := Keeps.contents now contents
      exact ⟨kept.sound sound, fun other _ => kept.relies other, relied.trans (kept.relies party)⟩
    next contents record _ =>
      split
      · have kept := Keeps.contents now contents
        exact ⟨kept.sound sound, fun other _ => kept.relies other, relied.trans (kept.relies party)⟩
      · have later (other : Nat) (contents : Contents) (clearGeneration : Nat) :
            Relies other now { now with contents, clearGeneration, epoch := now.epoch + 1 } :=
          { Relies.refl other now with epoch := Nat.le_succ _ }
        refine ⟨{ sound with generation := ?_, dated := fun operation member => ?_ },
          fun other _ => later other _ _, relied.trans (later party _ _)⟩
        · dsimp only
          rw [sound.generation, Nat.mod_add_mod]
        · exact Nat.le_succ_of_le (sound.dated operation member)

/-! ## Runs -/

variable {calls : List (Client × Nat × Call)}

/-- What a call leaves when it returns. -/
def Granted (calls : List (Client × Nat × Call)) (party : Nat) (_ : Reply) (shared : Shared) :
    Prop :=
  ∀ client turns grant, calls[party]? = some (client, turns, .completeGrant grant) →
    Completed party shared

theorem safe_call {client : Client} {turns : Nat} {call : Call}
    (here : calls[party]? = some (client, turns, call)) (state : Shared) :
    Keeping libraries party (Granted calls party) (fun _ _ => True)
      (call.thread libraries party client turns) state := by
  have other {thread : Act Reply} (leaves : Leaves libraries party thread)
      (nothing : ∀ grant, call ≠ .completeGrant grant) :
      Keeping libraries party (Granted calls party) (fun _ _ => True) thread state := by
    refine (leaves state).mono (fun _ _ _ client turns grant same => ?_) fun _ _ _ => trivial
    rw [here] at same
    cases same
    exact absurd rfl (nothing grant)
  cases call with
  | preflight => exact other (.bind (leaves_preflight client turns) fun _ => .done _) nofun
  | bootstrap => exact other (.bind (leaves_bootstrap client turns) fun _ => .done _) nofun
  | refresh => exact other (.bind (leaves_refresh client turns) fun _ => .done _) nofun
  | signedFetch => exact other (leaves_signedFetch client turns) nofun
  | clear => exact other (.bind (leaves_clear client) fun _ => .done _) nofun
  | completeGrant grant =>
    refine Thread.Safe.bind ((keeping_completeGrant client grant turns state).mono
      (fun _ _ known => known) fun _ _ _ => trivial) fun _ after known => ?_
    exact fun _ _ _ _ => known.2

theorem reliable : Threads.Reliable Relies (Granted calls) (fun _ (_ : Fault) _ => True) where
  refl := Relies.refl
  trans _ _ _ _ := Relies.trans
  stays _ _ _ _ granted relies client turns grant here :=
    (granted client turns grant here).later relies
  stands _ _ _ _ _ _ := trivial

theorem safe_begins {system : System} (begins : Begins libraries calls system) :
    system.Safe Sound Relies (fun party shared answer => careful libraries party shared answer = true)
      (Granted calls) fun _ _ _ => True where
  holds := {
    generation := by simp only [begins.epoch.1, begins.epoch.2, Nat.zero_mod]
    slots := fun kind => by
      rw [begins.performing, begins.idle kind]
      rfl
    flown := by
      rw [begins.performing]
      exact fun _ => nofun
    dated := by
      rw [begins.performing]
      exact fun _ => nofun
    stores := by
      rw [begins.stores]
      exact fun _ => nofun
    completions := by
      rw [begins.completions]
      exact fun _ => nofun }
  safe party thread here := by
    rw [begins.threads, List.getElem?_mapIdx, Option.map_eq_some_iff] at here
    obtain ⟨⟨client, turns, call⟩, there, rfl⟩ := here
    exact safe_call there system.shared

/-- In every run of careful steps there is one flight of a kind at most, no session is stored
behind a clear that its operation began before, or in place of another one that is usable and
not blocked, and a completed grant leaves a usable session that it has bought or that was not
blocked. -/
theorem sessions_promised {system : System} (reachable : (machine libraries calls).Reachable
      (fun system turn => careful libraries turn.party system.shared turn.answer = true) system) :
    (∀ kind, (system.shared.performing.filter fun operation => operation.kind = kind).length ≤ 1) ∧
    (∀ stored ∈ system.shared.stores, stored.Sound) ∧
    (∀ completion ∈ system.shared.completions, completion.Sound) ∧
    ∀ party client turns grant reply, calls[party]? = some (client, turns, .completeGrant grant) →
      system.threads[party]? = some (.done reply) →
        ∃ completion ∈ system.shared.completions, completion.party = party := by
  have safe := Threads.safe_of_reachable reliable (fun _ => safe_begins) reachable
  refine ⟨fun kind => ?_, safe.holds.stores, safe.holds.completions, ?_⟩
  · rw [safe.holds.slots kind]
    exact Option.length_toList_le
  · intro party client turns grant reply called ended
    exact safe.safe party _ ended client turns grant called

/-! ## A blocked session comes back -/

namespace Example

/-- SHA-256 of what is hashed here, and the time that is parsed. -/
def table : Libraries where
  parseTime text := if text = "2099-01-01T00:00:00Z" then some 4070908800000000000 else none
  digest text :=
    if text = "grant" then "3492ad65d05a973fef8c825521eeb41ae64625a672a8aeeeabc696e16d62a020"
    else if text = "s0\nk0" then "e2b15ff1dbae3fdd41ec0798e292aa82372b339d278e4853f4e31be2156fa7bf"
    else if text = "s1\nk1" then "21583ea44cb81989503b472075177282134bb71276b38ce89d0ea2dde303dc31"
    else "597e5af0da4baff8c0afb4c03e47018220618c2a40809e4af8985a16489961d5"

def scope : Scope := ⟨"example", "https://gateway.example", "ext-1.0", "extension"⟩

def client : Client := ⟨"a", scope, false, .ok "gateway.example", .ok ()⟩

def session (id secret : String) : Record :=
  ⟨"0123456789abcdef0123456789abcdef", id, secret, "2099-01-01T00:00:00Z", scope⟩

/-- Nothing fails, and no network. -/
def calm : Answer :=
  ⟨false, none, 1700000000000000000, none, "0123456789abcdef0123456789abcdef", none, none, none,
    none, .error "offline"⟩

def fetches (record : Record) : Answer :=
  { calm with response := .ok ⟨200, 0, .ok record, .error "", ⟨"", "", "", "", false⟩⟩ }

def refuses (status : Nat) (code action : String) : Answer :=
  { calm with
    response := .ok ⟨status, 0, .ok .empty, .error "", ⟨code, "gateway", action, "", false⟩⟩ }

def start (record : Record) (calls : List (Client × Nat × Call)) : System where
  shared := ⟨⟨record, "", "", none⟩, 0, fun _ => none, [], [], 0, [], [], [], []⟩
  threads := calls.mapIdx fun party (client, turns, call) =>
    call.thread table party client turns

theorem begins (record : Record) (calls : List (Client × Nat × Call)) :
    Begins table calls (start record calls) :=
  ⟨rfl, fun _ => rfl, rfl, rfl, ⟨rfl, rfl⟩, rfl, rfl, rfl⟩

def returned (system : System) (party : Nat) : Bool :=
  match system.threads[party]? with
  | some (.done _) => true
  | _ => false

/-- A grant of a scope that nobody else uses. -/
def alone : List (Client × Nat × Call) := [(client, 1, .completeGrant "grant")]

/-- A grant, while a fetch gets another session that the gateway blocks. -/
def meanwhile : List (Client × Nat × Call) :=
  [(client, 1, .completeGrant "grant"), (client, 2, .signedFetch)]

end Example

/-- A grant of a scope that nobody else uses is completed. -/
theorem sessions_promised_alone : ∃ system : System, Example.returned system 0 = true ∧
    ∃ completion ∈ system.shared.completions, completion.party = 0 := by
  let turns : List (Turn Answer) := [⟨0, Example.calm⟩, ⟨0, Example.calm⟩, ⟨0, Example.calm⟩,
    ⟨0, Example.calm⟩, ⟨0, Example.calm⟩, ⟨0, Example.calm⟩,
    ⟨0, Example.fetches (Example.session "s2" "k2")⟩, ⟨0, Example.calm⟩, ⟨0, Example.calm⟩,
    ⟨0, Example.calm⟩, ⟨0, Example.calm⟩, ⟨0, Example.calm⟩]
  have runs : ((machine Example.table Example.alone).run
      (Example.start .empty Example.alone) turns).any (Example.returned · 0) = true := by
    decide +kernel
  have meets : (machine Example.table Example.alone).runMeets
      (fun system turn => careful Example.table turn.party system.shared turn.answer)
      (Example.start .empty Example.alone) turns = true := by
    decide +kernel
  obtain ⟨system, reached, returned⟩ :=
    (machine Example.table Example.alone).exists_reachable_of_runMeets (Example.returned · 0)
      (Example.begins _ _) meets runs
  have ended := (sessions_promised reached).2.2.2 0 Example.client 1 "grant"
  unfold Example.returned at returned
  split at returned
  next reply here =>
    exact ⟨system, by rw [Example.returned, here], ended reply rfl here⟩
  next => cases returned

/-- The exchange keeps the session that a fetch has got and the gateway has blocked since, and
it is in use again. -/
theorem sessions_blocked_kept : ∃ system : System,
    (machine Example.table Example.meanwhile).Reachable Machine.anyStep system ∧
      Example.returned system 0 = true ∧ system.shared.contents.blockedGeneration = "" ∧
      ∃ completion ∈ system.shared.completions, completion.party = 0 ∧
        completion.record = system.shared.contents.record ∧ completion.blocked = true ∧
        completion.bought = none := by
  have runs : ((machine Example.table Example.meanwhile).run
      (Example.start (Example.session "s0" "k0") Example.meanwhile)
      [⟨0, Example.calm⟩, ⟨0, Example.calm⟩, ⟨0, Example.calm⟩, ⟨0, Example.calm⟩,
        ⟨0, Example.calm⟩, ⟨0, Example.calm⟩, ⟨1, Example.calm⟩, ⟨1, Example.calm⟩,
        ⟨1, Example.calm⟩, ⟨1, Example.refuses 401 "SESSION_INVALID" "bootstrap_session"⟩,
        ⟨1, Example.calm⟩, ⟨1, Example.calm⟩, ⟨1, Example.calm⟩,
        ⟨1, Example.fetches (Example.session "s1" "k1")⟩, ⟨1, Example.calm⟩, ⟨1, Example.calm⟩,
        ⟨1, Example.refuses 428 "VERIFY_REQUIRED" "verify"⟩, ⟨1, Example.calm⟩,
        ⟨0, Example.fetches (Example.session "s2" "k2")⟩, ⟨0, Example.calm⟩, ⟨0, Example.calm⟩,
        ⟨0, Example.calm⟩, ⟨0, Example.calm⟩, ⟨0, Example.calm⟩]).any
      (fun system => Example.returned system 0 &&
        (decide (system.shared.contents.blockedGeneration = "") &&
          system.shared.completions.any fun completion => decide (completion.party = 0 ∧
            completion.record = system.shared.contents.record ∧ completion.blocked = true ∧
            completion.bought = none))) = true := by
    decide +kernel
  obtain ⟨system, reached, checked⟩ :=
    (machine Example.table Example.meanwhile).exists_reachable_of_run _ (Example.begins _ _) runs
  simp only [Bool.and_eq_true] at checked
  obtain ⟨completion, member, known⟩ := List.any_eq_true.mp checked.2.2
  exact ⟨system, reached, checked.1, of_decide_eq_true checked.2.1, completion, member,
    of_decide_eq_true known⟩

end LosslessMusic.Extensions.SignedSession
