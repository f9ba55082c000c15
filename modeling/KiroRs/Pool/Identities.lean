/- Path: KiroRs/Pool/Identities
   source: src/kiro/token_manager.rs, src/kiro/provider.rs
   digest: Ids that are given again after a deletion: the calls, the copies of the statistics and
   the file that still have them, and the runs in which each changes what it was about. -/

import KiroRs.Lib.Provenance
import KiroRs.Pool.Invariants

set_option autoImplicit false
set_option relaxedAutoImplicit false

namespace KiroRs.Pool.Identities

open KiroRs.Lib
open KiroRs.Lib.Dicts (Dict)
open KiroRs.Lib.Provenance
open KiroRs.Lib.Traces
open KiroRs.Lib.WriteBehind
open KiroRs.Pool.Credentials
open KiroRs.Pool.Manager
open KiroRs.Pool.Tasks
open KiroRs.Pool.Selection (plainEnv)
open KiroRs.Pool.Persistence (Caller mayAct)
open KiroRs.Pool.RefreshInterleaving
open KiroRs.Pool.Changes
open KiroRs.Pool.Startup
open KiroRs.Pool.Invariants

/-- The entry that a report of `provider.rs` names. -/
def reportedId : Operation → Option Nat
  | .reportSuccess id _ | .reportFailure id _ | .reportQuotaExhausted id _
  | .reportAccountThrottled id _ _ _ | .reportRateLimited id _ _ _ => some id
  | _ => none

/-- The steps of the pool with the requests that use their contexts. `due` says whether a save of
the statistics is reached: its interval is over, or the file of a deletion is written. -/
inductive Act where
  | pool (a : Action) (due : Bool)
  | report (t : Nat) (op : Operation) (due : Bool)
  | letGo (t : Nat)
  | close (dirty : Bool)

/-- A report names the entry of the context that the request was given. -/
def act (env : Env) (s : System) : Act → Option System
  | .pool a _ =>
    match a with
    | .operation op => if (reportedId op).isSome then none else s.step env a
    | _ => s.step env a
  | .report t op _ =>
    match s.tasks t with
    | .returned _ context =>
      if reportedId op = some context.id then s.step env (.operation op) else none
    | _ => none
  | .letGo t =>
    match s.tasks t with
    | .returned _ _ => some { s with tasks := Function.update s.tasks t .done }
    | _ => none
  | .close _ => some s

def enabledAnd (m : MultiTokenManager) (id : Nat) (p : CredentialEntry → Bool) : Bool :=
  (m.find id).any fun e => !e.disabled && p e

/-- An operation ends with `save_stats`, or with `save_stats_debounced` after its interval. -/
def operationSaves (m : MultiTokenManager) (due : Bool) : Operation → Bool
  | .reportSuccess _ _ => due
  | .reportFailure id _ | .reportQuotaExhausted id _ | .reportRefreshTokenInvalid id _ =>
    enabledAnd m id (fun _ => true) && due
  | .reportRefreshFailure id _ =>
    enabledAnd m id (fun e => decide (maxFailuresPerCredential ≤ e.refreshFailureCount + 1)) && due
  | .resetSuccessCount id => (m.resetSuccessCount id).isOk
  | .deleteEntry id => (m.deleteEntry id).isOk && due
  | _ => false

def saves (s : System) : Act → Bool
  | .pool a due =>
    match a with
    | .operation op => operationSaves s.manager due op
    | .task t _ =>
      match s.tasks t with
      | .reportingInvalid _ id => operationSaves s.manager due (.reportRefreshTokenInvalid id "")
      | .reportingFailure _ id => operationSaves s.manager due (.reportRefreshFailure id "")
      | _ => false
    | _ => false
  | .report _ op due => operationSaves s.manager due op
  | .letGo _ => false
  | .close dirty => dirty

def mayCall : Caller → Act → Bool
  | c, .pool a _ => mayAct c a
  | .task t, .report t' _ _ | .task t, .letGo t' => t == t'
  | .thread _, .close _ => true
  | _, _ => false

def protocol (env : Env) : Protocol System Act Caller (Dict StatsEntry) where
  step := act env
  mayAct := mayCall
  persists := saves
  image s := collectStats s.manager.entries

abbrev StatsStore := Store System Caller (Dict StatsEntry)

/-- A pool with no call under way and the file it was started with. -/
def StatsStore.initial (m : MultiTokenManager) (file : Dict StatsEntry) : StatsStore where
  memory := System.initial m
  file := file
  phase := fun _ => .idle

abbrev StatsMove := Move Act Caller

/-- The runs of the pool, its requests and the savers of its statistics. -/
abbrev StatsRun (env : Env) (m : MultiTokenManager) (file : Dict StatsEntry)
    (trace : List (StatsStore × StatsMove)) (s : StatsStore) : Prop :=
  Run (protocol env).next (StatsStore.initial m file) trace s

/-- The entry that a call is about to change or to hand out, once it has looked it up. -/
def boundTo : Task → Option Nat
  | .switching _ id _ | .token _ id _ | .lockWait _ id | .rereading _ id | .refreshing _ id _
  | .profile _ id _ _ | .fetchingProfile _ id _ _ | .fallbackProfile _ id _ _
  | .settingProfile _ id _ _ _ | .finishing _ id _ _ | .recovering _ id | .reloading _ id _
  | .reportingInvalid _ id | .reportingFailure _ id | .querying _ id | .awaitingUsage id
  | .fillingTitle id _ | .fillingEmail id _ | .forceWaiting id _ | .forceRefreshing id _ => some id
  | .returned _ context => some context.id
  | _ => none

inductive Holder where
  | task (t : Nat)
  | copy (caller : Caller)
  | file

def hasRecord (stats : Dict StatsEntry) (id : Nat) : Bool := Dicts.containsKey stats (toString id)

def holds (s : StatsStore) (holder : Holder) (id : Nat) : Prop :=
  match holder with
  | .task t => boundTo (s.memory.tasks t) = some id
  | .copy caller => ∃ copy, s.phase caller = .writing copy ∧ hasRecord copy id = true
  | .file => hasRecord s.file id = true

def gives (s : StatsStore) : StatsMove → Option Nat
  | .act _ (.pool (.task t _) _) => (pushOf (s.memory.tasks t)).map (·.1)
  | _ => none

/-- A call has its id since it looked the entry up, a copy has its records since it was collected,
and the file has those of the copy that was written. -/
def origin (s : StatsStore) (move : StatsMove) : Holder → Origin Holder
  | .task t =>
    match move with
    | .act _ (.pool (.task t' _) _) =>
      if t' = t ∧ boundTo (s.memory.tasks t) = none then .taken else .kept (.task t)
    | _ => .kept (.task t)
  | .copy caller =>
    match move with
    | .copy c => if c = caller then .taken else .kept (.copy caller)
    | _ => .kept (.copy caller)
  | .file =>
    match move with
    | .write c => .kept (.copy c)
    | _ => .kept .file

def names (env : Env) : Names StatsStore StatsMove Holder Nat where
  step := (protocol env).next
  holds := holds
  gives := gives
  origin := origin

def actsFor (s : StatsStore) : StatsMove → Option (Nat × Nat)
  | .act _ (.pool (.task t _) _) | .act _ (.report t _ _) =>
    (boundTo (s.memory.tasks t)).map fun id => (t, id)
  | _ => none

/-- No call changes an entry other than the one it looked up: where it changes one of its id, no
entry has been added with the id since. The records of the file are no older than the entries of
their ids. -/
structure Identified (env : Env) (trace : List (StatsStore × StatsMove)) (s : StatsStore) :
    Prop where
  changes : ∀ move s' t id, actsFor s move = some (t, id) →
    (protocol env).next s move = some s' →
    List.Forall₂ (fun e e' => e' = e ∨
        e.id = id ∧ (names env).Ungiven id ((names env).since trace (.task t)))
      s.memory.manager.entries s'.memory.manager.entries
  records : ∀ id, hasRecord s.file id = true →
    (names env).Ungiven id ((names env).since trace .file)

/-- No entry is added with an id that a call has, or of which the file or a copy has a record. -/
def Unheld (s : StatsStore) (move : StatsMove) : Prop :=
  ∀ id, gives s move = some id → ∀ holder, ¬ holds s holder id

variable {env : Env} {s s' : System} {m : MultiTokenManager}

theorem boundTo_tokenFailed {p : Purpose} {id i : Nat} {e : RefreshError}
    (bound : boundTo (tokenFailed p id e) = some i) : i = id := by
  cases p with
  | acquire attempt => cases e <;> exact (Option.some.inj bound).symm
  | usage | models | preference => cases bound

theorem boundTo_withAccessToken {p : Purpose} {id i : Nat} {c : KiroCredentials}
    (bound : boundTo (withAccessToken p id c) = some i) : i = id := by
  unfold withAccessToken at bound
  cases token : c.accessToken with
  | none =>
    rw [token] at bound
    exact boundTo_tokenFailed bound
  | some _ =>
    rw [token] at bound
    cases p <;> exact (Option.some.inj bound).symm

theorem boundTo_tokenTask {utcNow : Int} {p : Purpose} {id i : Nat} {c : KiroCredentials}
    (bound : boundTo (tokenTask env utcNow p id c) = some i) : i = id := by
  unfold tokenTask at bound
  split_ifs at bound
  · cases key : c.kiroApiKey with
    | none =>
      rw [key] at bound
      exact boundTo_tokenFailed bound
    | some _ =>
      rw [key] at bound
      cases p <;> exact (Option.some.inj bound).symm
  · exact (Option.some.inj bound).symm
  · exact boundTo_withAccessToken bound

theorem boundTo_stepTask {t : Nat} {input : Input} {lock : Option Nat} {task : Task} {next : Next}
    (step : stepTask env t input m lock task = some next) {id i : Nat}
    (before : boundTo task = some id) (after : boundTo next.task = some i) : i = id := by
  cases task with
  | token p _ c =>
    cases before
    cases step
    exact boundTo_tokenTask after
  | rereading p _ =>
    cases before
    simp only [stepTask] at step
    split at step
    · cases step
      dsimp only at after
      exact boundTo_tokenFailed after
    · split_ifs at step
      · cases step
        exact (Option.some.inj after).symm
      · cases step
        exact boundTo_withAccessToken after
  | refreshing p _ c =>
    cases before
    simp only [stepTask] at step
    repeat' split at step
    all_goals cases step
    all_goals dsimp only at after
    all_goals first
      | exact boundTo_tokenFailed after
      | exact boundTo_withAccessToken after
  | reportingInvalid a _ | reportingFailure a _ =>
    cases step
    dsimp only at after
    split_ifs at after <;> cases after
  | idle | loopHead _ | stickyCheck _ | selecting _ | healing _ | reselecting _ | reading _ _
  | forceReading _ | adding _ | addRefreshing _ | addChoosing _ _ | addPushing _ _ | done
  | failed =>
    cases before
  | _ =>
    cases before
    simp only [stepTask] at step
    repeat' split at step
    all_goals first
      | cases step
        first
          | exact (Option.some.inj after).symm
          | cases after
      | cases step

theorem boundTo_call (call : Call) : boundTo (call.task m) = none := by
  cases call with
  | setUserPreferenceFor id overageStatus =>
    simp only [Call.task]
    split_ifs <;> rfl
  | _ => rfl

theorem writtenId_of_bound {task : Task} {i id : Nat} (writes : writtenId task = some i)
    (bound : boundTo task = some id) : i = id := by
  cases task with
  | refreshing _ _ _ | forceRefreshing _ _ | settingProfile _ _ _ _ _ | fillingTitle _ _
  | fillingEmail _ _ | reloading _ _ _ =>
    cases writes
    exact Option.some.inj bound
  | addPushing _ _ => cases bound
  | _ => cases writes

theorem change_of_bound {t : Nat} {input : Input} {id : Nat} {e e' : CredentialEntry}
    (bound : boundTo (s.tasks t) = some id) (change : Change env s (.task t input) e e') :
    e' = e ∨ e.id = id := by
  have own : ∀ {task : Task} {i : Nat}, s.tasks t = task → boundTo task = some i → i = id := by
    intro task i stands named
    rw [stands, named] at bound
    exact Option.some.inj bound
  cases change with
  | same => exact .inl rfl
  | refreshFailed stamp cause | refreshShutDown stamp cause =>
    rcases cause with ⟨stamp, none⟩ | ⟨t', input', attempt, same, stands⟩
    · cases none
    · cases same
      exact .inr (own stands rfl)
  | tokenInvalid stamp cause =>
    rcases cause with ⟨stamp, none⟩ | ⟨t', input', attempt, same, stands⟩
    · cases none
    · cases same
      exact .inr (own stands rfl)
  | edited c cause identity => exact .inr (writtenId_of_bound cause bound)
  | written t' input' purpose snapshot new cause stands answer
  | forced t' input' snapshot new cause stands answer
  | ensured t' input' attempt c token cause stands
  | reloaded t' input' attempt found cause stands =>
    cases cause
    exact .inr (own stands rfl)
  | healed t' input' attempt cause stands =>
    cases cause
    rw [stands] at bound
    cases bound
  | succeeded stamp cause | failed stamp cause | shutDown stamp cause | quotaExhausted stamp cause
  | cooled op throttled limited total cause | uncounted i cause | switchedOff cause
  | switchedOn cause | quotaMarked cause | reset cause | retokened token access expires cause =>
    cases cause

theorem change_of_report {op : Operation} {id : Nat} {e e' : CredentialEntry}
    (reports : reportedId op = some id) (change : Change env s (.operation op) e e') :
    e' = e ∨ e.id = id := by
  cases change with
  | same => exact .inl rfl
  | succeeded stamp cause | failed stamp cause | shutDown stamp cause
  | quotaExhausted stamp cause =>
    cases cause
    exact .inr (Option.some.inj reports)
  | cooled op' throttled limited total cause cools =>
    cases cause
    cases op with
    | reportAccountThrottled i _ _ _ | reportRateLimited i _ _ _ =>
      rw [← Option.some.inj cools]
      exact .inr (Option.some.inj reports)
    | clearThrottle i => cases reports
    | _ => cases cools
  | refreshFailed stamp cause | refreshShutDown stamp cause =>
    rcases cause with ⟨stamp, same⟩ | ⟨t', input', attempt, none, stands⟩
    · cases same
      cases reports
    · cases none
  | tokenInvalid stamp cause =>
    rcases cause with ⟨stamp, same⟩ | ⟨t', input', attempt, none, stands⟩
    · cases same
      cases reports
    · cases none
  | edited c cause identity =>
    cases op with
    | reportSuccess _ _ | reportFailure _ _ | reportQuotaExhausted _ _
    | reportAccountThrottled _ _ _ _ | reportRateLimited _ _ _ _ => cases cause
    | _ => cases reports
  | written t' input' purpose snapshot new cause | forced t' input' snapshot new cause
  | ensured t' input' attempt c token cause | healed t' input' attempt cause
  | reloaded t' input' attempt found cause => cases cause
  | uncounted i cause | switchedOff cause | switchedOn cause | quotaMarked cause | reset cause
  | retokened token access expires cause =>
    cases cause
    cases reports

theorem forall₂_of_actsFor {s s' : StatsStore} {move : StatsMove} {t id : Nat}
    (acts : actsFor s move = some (t, id)) (step : (protocol env).next s move = some s') :
    boundTo (s.memory.tasks t) = some id ∧
      List.Forall₂ (fun e e' => e' = e ∨ e.id = id) s.memory.manager.entries
        s'.memory.manager.entries := by
  cases move with
  | copy caller | write caller => cases acts
  | act caller a =>
    obtain ⟨-, acted, -⟩ := next_act step
    cases a with
    | letGo _ | close _ => cases acts
    | report t' op due =>
      obtain ⟨i, bound, same⟩ := Option.map_eq_some_iff.mp acts
      cases same
      refine ⟨bound, ?_⟩
      simp only [protocol, act] at acted
      split at acted
      · next model context stands =>
        split_ifs at acted with reports
        rw [stands] at bound
        cases bound
        rcases entries_step acted with changes | ⟨i, e, same, -⟩ | ⟨t', input, i, c, none, -⟩
        · exact changes.imp fun e e' change => change_of_report reports change
        · cases same
          cases reports
        · cases none
      · cases acted
    | pool a due =>
      cases a with
      | start _ _ | drop _ | operation _ => cases acts
      | task t' input =>
        obtain ⟨i, bound, same⟩ := Option.map_eq_some_iff.mp acts
        cases same
        refine ⟨bound, ?_⟩
        simp only [protocol, act] at acted
        rcases entries_step acted with changes | ⟨i, e, none, -⟩ | ⟨t', input', i, c, same, adds, -⟩
        · exact changes.imp fun e e' change => change_of_bound bound change
        · cases none
        · cases same
          rw [adds] at bound
          cases bound

theorem bound_step {a : Action} (step : s.step env a = some s') {t id : Nat}
    (after : boundTo (s'.tasks t) = some id) : boundTo (s.tasks t) = some id ∨
      boundTo (s.tasks t) = none ∧ ∃ input, a = .task t input := by
  rcases task_step step t with same | ⟨call, -, started⟩ | ⟨input, next, rfl, taken, stands, -⟩ |
    ⟨-, dropped⟩
  · rw [same] at after
    exact .inl after
  · rw [started, boundTo_call] at after
    cases after
  · rw [stands] at after
    cases before : boundTo (s.tasks t) with
    | none => exact .inr ⟨rfl, input, rfl⟩
    | some i =>
      rw [boundTo_stepTask taken before after]
      exact .inl rfl
  · rw [dropped] at after
    cases after

theorem step_of_pool {a : Action} {due : Bool} (step : act env s (.pool a due) = some s') :
    s.step env a = some s' := by
  simp only [act] at step
  split at step
  · split_ifs at step
    exact step
  · exact step

theorem bound_act {a : Act} (step : act env s a = some s') {t id : Nat}
    (after : boundTo (s'.tasks t) = some id) : boundTo (s.tasks t) = some id ∨
      boundTo (s.tasks t) = none ∧ ∃ input due, a = .pool (.task t input) due := by
  cases a with
  | pool a due =>
    rcases bound_step (step_of_pool step) after with before | ⟨unbound, input, rfl⟩
    · exact .inl before
    · exact .inr ⟨unbound, input, due, rfl⟩
  | report t' op due =>
    simp only [act] at step
    split at step
    · split_ifs at step
      rcases bound_step step after with before | ⟨-, input, none⟩
      · exact .inl before
      · cases none
    · cases step
  | letGo t' =>
    simp only [act] at step
    split at step
    · cases step
      dsimp only at after
      by_cases here : t = t'
      · rw [here, Function.update_self] at after
        cases after
      · rw [Function.update_of_ne here] at after
        exact .inl after
    · cases step
  | close dirty =>
    cases step
    exact .inl after

theorem names_keeps (env : Env) : (names env).Keeps := by
  intro s move s' holder holder' id step kept holds'
  have step : (protocol env).next s move = some s' := step
  cases holder with
  | task t =>
    have same : holder' = .task t ∧ ∀ c input due, move = .act c (.pool (.task t input) due) →
        boundTo (s.memory.tasks t) ≠ none := by
      simp only [names, origin] at kept
      split at kept
      · split_ifs at kept with own
        cases kept
        refine ⟨rfl, fun c input due eq => ?_⟩
        cases eq
        exact fun unbound => own ⟨rfl, unbound⟩
      · next other =>
        cases kept
        exact ⟨rfl, fun c input due eq => absurd eq (other c t input due)⟩
    obtain ⟨rfl, own⟩ := same
    cases move with
    | act c a =>
      obtain ⟨-, acted, -⟩ := next_act step
      rcases bound_act acted holds' with before | ⟨unbound, input, due, rfl⟩
      · exact before
      · exact absurd unbound (own c input due rfl)
    | copy c =>
      rw [next_copy step] at holds'
      exact holds'
    | write c =>
      obtain ⟨copy, -, rfl⟩ := next_write step
      exact holds'
  | copy caller =>
    obtain ⟨copy, writing, has⟩ := holds'
    cases move with
    | act c a =>
      cases kept
      obtain ⟨-, -, -, phase⟩ := next_act step
      refine ⟨copy, ?_, has⟩
      rw [phase] at writing
      split_ifs at writing
      · by_cases here : caller = c
        · rw [here, Function.update_self] at writing
          cases writing
        · rw [Function.update_of_ne here] at writing
          exact writing
      · exact writing
    | copy c =>
      simp only [names, origin] at kept
      split_ifs at kept with own
      cases kept
      rw [next_copy step] at writing
      dsimp only at writing
      rw [Function.update_of_ne (Ne.symm own)] at writing
      exact ⟨copy, writing, has⟩
    | write c =>
      cases kept
      obtain ⟨written, -, rfl⟩ := next_write step
      dsimp only at writing
      by_cases here : caller = c
      · rw [here, Function.update_self] at writing
        cases writing
      · rw [Function.update_of_ne here] at writing
        exact ⟨copy, writing, has⟩
  | file =>
    cases move with
    | act c a =>
      cases kept
      obtain ⟨-, -, file, -⟩ := next_act step
      have has : hasRecord s'.file id = true := holds'
      rw [file] at has
      exact has
    | copy c =>
      cases kept
      rw [next_copy step] at holds'
      exact holds'
    | write c =>
      cases kept
      obtain ⟨copy, writing, rfl⟩ := next_write step
      exact ⟨copy, writing, holds'⟩

/-- In every run that adds no entry with an id that is still had somewhere, the calls change the
entries that they looked up, and the file keeps no record of an entry that is gone for another. -/
theorem ids_name_their_entries (env : Env) (m : MultiTokenManager) (file : Dict StatsEntry)
    {trace : List (StatsStore × StatsMove)} {s : StatsStore} (run : StatsRun env m file trace s)
    (unheld : Guarded Unheld trace) : Identified env trace s := by
  have ungiven := Names.ungiven_since (n := names env) (names_keeps env) run unheld
  refine ⟨?_, fun id has => ungiven .file id has⟩
  intro move s' t id acts step
  obtain ⟨bound, changes⟩ := forall₂_of_actsFor acts step
  refine changes.imp fun e e' change => ?_
  rcases change with same | here
  · exact .inl same
  · exact .inr ⟨here, ungiven (.task t) id bound⟩

theorem caller_of_mayAct {c : Caller} {a : Action} {t : Nat} (may : mayAct c a = true)
    (own : (∃ call, a = .start t call) ∨ (∃ input, a = .task t input) ∨ a = .drop t) :
    c = .task t := by
  cases c with
  | task n =>
    rcases own with ⟨call, rfl⟩ | ⟨input, rfl⟩ | rfl
    all_goals
      have same : n = t := beq_iff_eq.mp may
      rw [same]
  | thread n => rcases own with ⟨call, rfl⟩ | ⟨input, rfl⟩ | rfl <;> cases may

theorem tasks_act {a : Act} {c : Caller} {t : Nat} (other : c ≠ .task t)
    (may : mayCall c a = true) (step : act env s a = some s') : s'.tasks t = s.tasks t := by
  cases a with
  | close dirty =>
    cases step
    rfl
  | letGo t' =>
    have own : c = .task t' := by
      cases c with
      | task n =>
        have same : n = t' := beq_iff_eq.mp may
        rw [same]
      | thread n => cases may
    simp only [act] at step
    split at step
    · cases step
      refine Function.update_of_ne ?_ ..
      rintro rfl
      exact other own
    · cases step
  | report t' op due =>
    simp only [act] at step
    split at step
    · split_ifs at step
      cases step
      rfl
    · cases step
  | pool a due =>
    rcases task_step (step_of_pool step) t with same | ⟨call, rfl, -⟩ | ⟨input, next, rfl, -⟩ |
      ⟨rfl, -⟩
    · exact same
    · exact absurd (caller_of_mayAct may (.inl ⟨call, rfl⟩)) other
    · exact absurd (caller_of_mayAct may (.inr (.inl ⟨input, rfl⟩))) other
    · exact absurd (caller_of_mayAct may (.inr (.inr rfl))) other

theorem tasks_next {s s' : StatsStore} {move : StatsMove} {t : Nat}
    (other : move.writer ≠ .task t) (step : (protocol env).next s move = some s') :
    s'.memory.tasks t = s.memory.tasks t := by
  cases move with
  | act c a =>
    obtain ⟨may, acted, -⟩ := next_act step
    exact tasks_act other may acted
  | copy c => rw [next_copy step]
  | write c =>
    obtain ⟨copy, -, rfl⟩ := next_write step
    rfl

/-- The caller has the id neither in its call nor in its copy. -/
def free (s : StatsStore) (id : Nat) (c : Caller) : Bool :=
  (match s.phase c with
    | .writing copy => !hasRecord copy id
    | _ => true) &&
  (match c with
    | .task t => boundTo (s.memory.tasks t) != some id
    | .thread _ => true)

theorem free_of_absent {file : Dict StatsEntry} {trace : List (StatsStore × StatsMove)}
    {s : StatsStore} (run : StatsRun env m file trace s) {c : Caller}
    (absent : ∀ p ∈ trace, p.2.writer ≠ c) (id : Nat) : free s id c = true := by
  have idle : s.phase c = .idle := phase_of_absent run absent
  unfold free
  rw [idle]
  cases c with
  | thread n => rfl
  | task t =>
    have unstarted : s.memory.tasks t = .idle := by
      clear idle
      induction run with
      | nil => rfl
      | cons run step ih =>
        rw [tasks_next (absent _ List.mem_cons_self) step]
        exact ih fun p mem => absent p (List.mem_cons_of_mem _ mem)
    dsimp only
    rw [unstarted]
    rfl

theorem unheld_of_callers {file : Dict StatsEntry} {trace : List (StatsStore × StatsMove)}
    {s : StatsStore} (run : StatsRun env m file trace s) (callers : List Caller)
    (movers : ∀ p ∈ trace, p.2.writer ∈ callers)
    (each : ∀ p ∈ trace, ∀ id ∈ gives p.1 p.2,
      hasRecord p.1.file id = false ∧ ∀ c ∈ callers, free p.1 id c = true) :
    Guarded Unheld trace := by
  induction run with
  | nil =>
    intro p mem
    cases mem
  | @cons trace s s' move run step ih =>
    have rest := ih (fun p mem => movers p (List.mem_cons_of_mem _ mem))
      (fun p mem => each p (List.mem_cons_of_mem _ mem))
    intro p mem
    rcases List.mem_cons.mp mem with rfl | mem
    · intro id given holder holds
      obtain ⟨unrecorded, all⟩ := each _ List.mem_cons_self id given
      have everyone : ∀ c, free s id c = true := by
        intro c
        by_cases mover : c ∈ callers
        · exact all c mover
        · refine free_of_absent run (fun p mem same => mover ?_) id
          rw [← same]
          exact movers p (List.mem_cons_of_mem _ mem)
      cases holder with
      | task t =>
        have nobody := everyone (.task t)
        have has : boundTo (s.memory.tasks t) = some id := holds
        simp [free, has] at nobody
      | copy c =>
        obtain ⟨copy, writing, has⟩ := holds
        have writing : s.phase c = .writing copy := writing
        have nobody := everyone c
        simp [free, writing, has] at nobody
      | file =>
        have has : hasRecord s.file id = true := holds
        dsimp only at unrecorded
        rw [unrecorded] at has
        cases has
    · exact rest p mem

def oneKey : MultiTokenManager where
  config := ⟨"us-east-1", none, none⟩
  entries := [{ id := 1, credentials := { kiroApiKey := some "ksk_1" } }]
  currentId := 1
  loadBalancingMode := "priority"
  enterpriseProfileFetchAttempted := []

def requestsFirst : List StatsMove :=
  .act (.task 0) (.pool (.start 0 (.acquireContext none)) false) ::
    List.replicate 3 (.act (.task 0) (.pool (.task 0 {}) false))

def addsAnother : List StatsMove :=
  .act (.task 1) (.pool (.start 1 (.addCredential { kiroApiKey := some "ksk_2" })) false) ::
    List.replicate 3 (.act (.task 1) (.pool (.task 1 {}) false))

def deletes : List StatsMove :=
  [.act (.thread 0) (.pool (.operation (.setDisabled 1 true)) false),
    .act (.thread 0) (.pool (.operation (.deleteEntry 1)) true)]

/-- The request reports and ends, its statistics are saved, and the next credential is added when
the file is clean again. -/
def inTurn : List StatsMove :=
  requestsFirst ++
    [.act (.task 0) (.report 0 (.reportSuccess 1 "now") true), .copy (.task 0), .write (.task 0),
      .act (.task 0) (.letGo 0)] ++
    deletes ++ [.copy (.thread 0), .write (.thread 0)] ++ addsAnother

theorem inTurn_run :
    ((follow (protocol plainEnv).next [] (StatsStore.initial oneKey []) inTurn).any fun reached =>
      reached.1.all (fun p =>
        decide (p.2.writer ∈ [.task 0, .task 1, .thread 0]) &&
        decide (∀ id ∈ gives p.1 p.2, hasRecord p.1.file id = false ∧
          ∀ c ∈ [Caller.task 0, .task 1, .thread 0], free p.1 id c = true)) &&
        reached.2.memory.manager.entries.map (·.credentials.kiroApiKey) == [some "ksk_2"] &&
        reached.1.any fun p => gives p.1 p.2 == some 1) = true := by
  decide +kernel

theorem ids_name_their_entries_inTurn : ∃ trace s, StatsRun plainEnv oneKey [] trace s ∧
    (∃ p ∈ trace, gives p.1 p.2 = some 1) ∧ Identified plainEnv trace s := by
  obtain ⟨reached, followed, holds⟩ := (Option.any_eq_true _ _).mp inTurn_run
  simp only [Bool.and_eq_true, List.all_eq_true, decide_eq_true_eq] at holds
  obtain ⟨⟨each, -⟩, given⟩ := holds
  obtain ⟨p, mem, gave⟩ := List.any_eq_true.mp given
  obtain ⟨run, -⟩ := follow_run .nil followed
  refine ⟨reached.1, reached.2, run, ⟨p, mem, beq_iff_eq.mp gave⟩, ?_⟩
  exact ids_name_their_entries plainEnv oneKey [] run
    (unheld_of_callers run [.task 0, .task 1, .thread 0] (fun p mem => (each p mem).1)
      fun p mem => (each p mem).2)

/-- The token endpoint answers a forced refresh. -/
def answered : StatsMove := .act (.task 0) (.pool (.task 0 { refresh := .ok newToken }) false)

def lateAnswer : List StatsMove :=
  [.act (.task 0) (.pool (.start 0 (.forceRefreshTokenFor 1)) false),
    .act (.task 0) (.pool (.task 0 {}) false), .act (.task 0) (.pool (.task 0 {}) false)] ++
    deletes ++ addsAnother

def apiKeys (s : StatsStore) : List (Option String) :=
  s.memory.manager.entries.map (·.credentials.kiroApiKey)

theorem lateAnswer_run :
    ((follow (protocol plainEnv).next [] (StatsStore.initial single []) lateAnswer).any
      fun reached =>
        apiKeys reached.2 == [some "ksk_2"] && actsFor reached.2 answered == some (0, 1) &&
        (((names plainEnv).since reached.1 (.task 0)).any fun p => gives p.1 p.2 == some 1) &&
        ((protocol plainEnv).next reached.2 answered).any fun s => apiKeys s == [none]) = true := by
  decide +kernel

/-- The tokens of the deleted account are written over the key of the new one. -/
theorem late_answer_overwrites : ¬ ∀ (env : Env) (m : MultiTokenManager) (file : Dict StatsEntry)
    (trace : List (StatsStore × StatsMove)) (s : StatsStore), StatsRun env m file trace s →
      Identified env trace s := by
  intro claim
  obtain ⟨reached, followed, holds⟩ := (Option.any_eq_true _ _).mp lateAnswer_run
  simp only [Bool.and_eq_true, beq_iff_eq] at holds
  obtain ⟨⟨⟨before, acts⟩, given⟩, last⟩ := holds
  obtain ⟨p, mem, gave⟩ := List.any_eq_true.mp given
  obtain ⟨s', step, after⟩ := (Option.any_eq_true _ _).mp last
  obtain ⟨run, -⟩ := follow_run .nil followed
  have changes := (claim plainEnv single [] _ _ run).changes answered s' 0 1 acts step
  have same := changes.imp fun e e' change => show e' = e from by
    rcases change with same | ⟨-, ungiven⟩
    · exact same
    · exact absurd (beq_iff_eq.mp gave) (ungiven p mem)
  have equal : s'.memory.manager.entries = reached.2.memory.manager.entries :=
    (List.forall₂_eq_eq_eq ▸ same.flip)
  have keys := beq_iff_eq.mp after
  unfold apiKeys at keys before
  rw [equal, before] at keys
  exact absurd keys (by decide)

def lateFile : List StatsMove :=
  requestsFirst ++
    [.act (.task 0) (.report 0 (.reportSuccess 1 "now") true), .copy (.task 0), .write (.task 0),
      .act (.task 0) (.letGo 0)] ++
    deletes ++ addsAnother

theorem lateFile_run :
    ((follow (protocol plainEnv).next [] (StatsStore.initial oneKey []) lateFile).any
      fun reached =>
        hasRecord reached.2.file 1 &&
        ((names plainEnv).since reached.1 .file).any fun p => gives p.1 p.2 == some 1) = true := by
  decide +kernel

theorem late_file_misattributes : ∃ trace s, StatsRun plainEnv oneKey [] trace s ∧
    ¬ Identified plainEnv trace s := by
  obtain ⟨reached, followed, holds⟩ := (Option.any_eq_true _ _).mp lateFile_run
  obtain ⟨has, given⟩ := (Bool.and_eq_true _ _).mp holds
  obtain ⟨p, mem, gave⟩ := List.any_eq_true.mp given
  obtain ⟨run, -⟩ := follow_run .nil followed
  refine ⟨reached.1, reached.2, run, fun identified => ?_⟩
  exact identified.records 1 has p mem (beq_iff_eq.mp gave)

end KiroRs.Pool.Identities
