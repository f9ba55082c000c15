/- Path: KiroRs/Pool/ApiCalls
   source: src/kiro/provider.rs, src/kiro/token_manager.rs
   digest: Any number of API calls at once over one pool: what disables a credential, what the
   answers of the upstream leave alone, and how many requests a call makes. -/

import KiroRs.Pool.Acquire
import KiroRs.Pool.Changes
import KiroRs.Pool.Failover
import KiroRs.Pool.FailoverRuns

set_option autoImplicit false
set_option relaxedAutoImplicit false

namespace KiroRs.Pool.ApiCalls

open KiroRs.Lib.Traces
open KiroRs.Pool.Credentials
open KiroRs.Pool.Manager
open KiroRs.Pool.Manager.MultiTokenManager
open KiroRs.Pool.Tasks
open KiroRs.Pool.ManualDisable (ids ids_update changed_of_mem_update)
open KiroRs.Pool.Changes
open KiroRs.Pool.Failover
open KiroRs.Pool.Selection (plainEnv)
open KiroRs.Pool.FailoverRuns (twoKeys polite suspicious)

/-- The pool and where each call stands, once it has begun. -/
structure ApiSystem where
  manager : MultiTokenManager
  refreshLock : Option Nat
  phases : Nat → Option Phase

def ApiSystem.initial (m : MultiTokenManager) : ApiSystem := ⟨m, none, fun _ => none⟩

/-- A call begins, makes a step, or is dropped by its client. -/
inductive ApiAction where
  | begin (t : Nat) (model : Option String)
  | step (t : Nat) (input : CallInput)
  | drop (t : Nat)

def ApiSystem.step (p : Provider) (env : Env) (s : ApiSystem) : ApiAction → Option ApiSystem
  | .begin t model =>
      match s.phases t with
      | none =>
          some { s with
            phases := Function.update s.phases t (some (p.call s.manager model).phase) }
      | some _ => none
  | .step t input =>
      (s.phases t).bind fun phase =>
        (stepCall p env t ⟨s.manager, s.refreshLock, phase⟩ input).map fun next =>
          ⟨next.manager, next.refreshLock, Function.update s.phases t (some next.phase)⟩
  | .drop t =>
      (s.phases t).map fun _ =>
        ⟨s.manager, release t s.refreshLock, Function.update s.phases t (some .failed)⟩

/-- The runs of calls over a pool. -/
abbrev ApiRun (p : Provider) (env : Env) (m : MultiTokenManager)
    (trace : List (ApiSystem × ApiAction)) (s : ApiSystem) : Prop :=
  Run (ApiSystem.step p env) (ApiSystem.initial m) trace s

/-- What a step means for the counters of a credential: an answer of the upstream, a token that was
had or not, a refresh token that was found revoked. -/
inductive Event where
  | succeeded (id : Nat)
  | refused (id : Nat)
  | exhausted (id : Nat)
  | tokenHad (id : Nat)
  | tokenFailed (id : Nat)
  | tokenRevoked (id : Nat)
  deriving DecidableEq

def taskEvent (input : Input) : Task → Option Event
  | .finishing _ id _ _ => some (.tokenHad id)
  | .reportingFailure _ id => some (.tokenFailed id)
  | .reportingInvalid _ id => some (.tokenRevoked id)
  | .forceRefreshing id snapshot =>
      match refreshToken snapshot input.refresh with
      | .ok _ => some (.tokenHad id)
      | .error _ => none
  | _ => none

def phaseEvent (p : Provider) (input : CallInput) : Phase → Option Event
  | .acquiring _ (.returned _ context) =>
      match p.endpointFor context.credentials with
      | .ok _ => none
      | .error _ => some (.refused context.id)
  | .acquiring _ task => taskEvent input.pool task
  | .requesting l context =>
      match input.answer with
      | .response status body _ =>
          match p.verdict (context.id ∈ l.forceRefreshed) status body with
          | .success => some (.succeeded context.id)
          | .quotaExhausted => some (.exhausted context.id)
          | .failure => some (.refused context.id)
          | _ => none
      | _ => none
  | .refreshing _ id .failed => some (.refused id)
  | .refreshing _ _ task => taskEvent input.pool task
  | _ => none

def eventOf (p : Provider) (s : ApiSystem) : ApiAction → Option Event
  | .step t input => (s.phases t).bind (phaseEvent p input)
  | _ => none

structure Marks where
  id : Nat
  disabled : Bool
  disabledReason : Option DisabledReason
  failureCount : Nat
  refreshFailureCount : Nat

def marksOf (e : CredentialEntry) : Marks :=
  ⟨e.id, e.disabled, e.disabledReason, e.failureCount, e.refreshFailureCount⟩

/-- What a step of a call can do to the marks of an entry. -/
inductive Effect (event : Option Event) (k : Marks) : Marks → Prop where
  | kept : Effect event k k
  | succeeded (cause : event = some (.succeeded k.id)) :
      Effect event k { k with failureCount := 0, refreshFailureCount := 0 }
  | refused (cause : event = some (.refused k.id)) :
      Effect event k { k with failureCount := k.failureCount + 1 }
  | shutDown (cause : event = some (.refused k.id))
      (reached : maxFailuresPerCredential ≤ k.failureCount + 1) (enabled : k.disabled = false) :
      Effect event k
        { k with
          failureCount := k.failureCount + 1
          disabled := true
          disabledReason := some .tooManyFailures }
  | exhausted (cause : event = some (.exhausted k.id)) :
      Effect event k
        { k with
          disabled := true
          disabledReason := some .quotaExceeded
          failureCount := maxFailuresPerCredential }
  | tokenFailed (cause : event = some (.tokenFailed k.id)) :
      Effect event k { k with refreshFailureCount := k.refreshFailureCount + 1 }
  | tokenShutDown (cause : event = some (.tokenFailed k.id))
      (reached : maxFailuresPerCredential ≤ k.refreshFailureCount + 1)
      (enabled : k.disabled = false) :
      Effect event k
        { k with
          refreshFailureCount := k.refreshFailureCount + 1
          disabled := true
          disabledReason := some .tooManyRefreshFailures }
  | revoked (cause : event = some (.tokenRevoked k.id)) (enabled : k.disabled = false) :
      Effect event k { k with disabled := true, disabledReason := some .invalidRefreshToken }
  | tokenHad (cause : event = some (.tokenHad k.id)) :
      Effect event k { k with refreshFailureCount := 0 }
  | healed (failures : k.disabledReason = some .tooManyFailures) :
      Effect event k { k with disabled := false, disabledReason := none, failureCount := 0 }
  | reloaded :
      Effect event k
        { k with
          disabled := false
          disabledReason := none
          failureCount := 0
          refreshFailureCount := 0 }

inductive Announces (s : System) : Action → Option Event → Prop where
  | task (t : Nat) (input : Input) : Announces s (.task t input) (taskEvent input (s.tasks t))
  | succeeded (id : Nat) (stamp : String) :
      Announces s (.operation (.reportSuccess id stamp)) (some (.succeeded id))
  | refused (id : Nat) (stamp : String) :
      Announces s (.operation (.reportFailure id stamp)) (some (.refused id))
  | exhausted (id : Nat) (stamp : String) :
      Announces s (.operation (.reportQuotaExhausted id stamp)) (some (.exhausted id))
  | throttled (id now later cooldown : Nat) :
      Announces s (.operation (.reportAccountThrottled id now later cooldown)) none
  | limited (id now later cooldown : Nat) :
      Announces s (.operation (.reportRateLimited id now later cooldown)) none

variable {p : Provider} {env : Env}

theorem effect_of_change {s : System} {a : Action} {event : Option Event}
    {e e' : CredentialEntry} (announces : Announces s a event) (change : Change env s a e e') :
    Effect event (marksOf e) (marksOf e') := by
  cases change with
  | same => exact .kept
  | succeeded stamp cause =>
    subst cause
    cases announces
    exact .succeeded rfl
  | failed stamp cause enabled below =>
    subst cause
    cases announces
    exact .refused rfl
  | shutDown stamp cause enabled reached =>
    subst cause
    cases announces
    exact .shutDown rfl reached enabled
  | quotaExhausted stamp cause enabled =>
    subst cause
    cases announces
    exact .exhausted rfl
  | refreshFailed stamp cause enabled below =>
    rcases cause with ⟨stamp', rfl⟩ | ⟨t, input, attempt, rfl, stands⟩
    · cases announces
    · cases announces
      exact .tokenFailed (by rw [stands]; rfl)
  | refreshShutDown stamp cause enabled reached =>
    rcases cause with ⟨stamp', rfl⟩ | ⟨t, input, attempt, rfl, stands⟩
    · cases announces
    · cases announces
      exact .tokenShutDown (by rw [stands]; rfl) reached enabled
  | tokenInvalid stamp cause enabled =>
    rcases cause with ⟨stamp', rfl⟩ | ⟨t, input, attempt, rfl, stands⟩
    · cases announces
    · cases announces
      exact .revoked (by rw [stands]; rfl) enabled
  | cooled | edited | written => exact .kept
  | uncounted id cause => exact .kept
  | switchedOff cause | switchedOn cause | quotaMarked cause =>
    subst cause
    cases announces
  | reset cause =>
    subst cause
    cases announces
  | retokened token access expires cause =>
    subst cause
    cases announces
  | forced t input snapshot new cause stands answer =>
    subst cause
    cases announces
    exact .tokenHad (by rw [stands, taskEvent, answer]; rfl)
  | ensured t input attempt c token cause stands =>
    subst cause
    cases announces
    exact .tokenHad (by rw [stands]; rfl)
  | healed t input attempt cause stands failures => exact .healed failures
  | reloaded => exact .reloaded

/-- The places of an `acquire_context`. -/
def AcquireTask : Task → Prop
  | .loopHead _ | .stickyCheck _ | .selecting _ | .healing _ | .reselecting _ | .switching _ _ _
  | .token (.acquire _) _ _ | .lockWait (.acquire _) _ | .rereading (.acquire _) _
  | .refreshing (.acquire _) _ _ | .profile _ _ _ _ | .fetchingProfile _ _ _ _
  | .fallbackProfile _ _ _ _ | .settingProfile _ _ _ _ _ | .finishing _ _ _ _
  | .recovering _ _ | .reloading _ _ _ | .reportingInvalid _ _ | .reportingFailure _ _
  | .returned _ _ | .failed => True
  | _ => False

def ForceTask (id : Nat) : Task → Prop
  | .forceReading i | .forceWaiting i _ | .forceRefreshing i _ => i = id
  | .done | .failed => True
  | _ => False

def suspect : Task → Option Nat
  | .recovering _ id | .reloading _ id _ | .reportingInvalid _ id => some id
  | _ => none

/-- The token endpoint finds the refresh token of a credential revoked. -/
def FindsRevoked (input : Input) (task : Task) (id : Nat) : Prop :=
  ∃ a snapshot message, task = .refreshing (.acquire a) id snapshot ∧
    refreshToken snapshot input.refresh = .error (.invalid message)

def failing : Task → Option Nat
  | .reportingFailure _ id => some id
  | _ => none

/-- A refresh gives no token that is still valid, or an API key credential has no key. -/
def FindsFailed (env : Env) (input : Input) (task : Task) (id : Nat) : Prop :=
  (∃ a snapshot, task = .refreshing (.acquire a) id snapshot ∧
    ∀ new, refreshToken snapshot input.refresh = .ok new →
      isTokenExpired env input.utcNow new = true) ∨
  ∃ a c, task = .token (.acquire a) id c ∧ c.isApiKeyCredential = true ∧ c.kiroApiKey = none

/-- The task takes credentials without an access token for ones that need no refresh. -/
def Overlooked (env : Env) (input : Input) (m : MultiTokenManager) (task : Task) : Prop :=
  (∃ a id c, task = .token (.acquire a) id c ∧ c.isApiKeyCredential = false ∧
    needsRefresh env input.utcNow c = false ∧ c.accessToken = none) ∨
  ∃ a id e, task = .rereading (.acquire a) id ∧ m.find id = some e ∧
    needsRefresh env input.utcNow e.credentials = false ∧ e.credentials.accessToken = none

/-- Where a step of an `acquire_context` leads. -/
structure Follows (env : Env) (input : Input) (m : MultiTokenManager) (task next : Task) :
    Prop where
  acquire : AcquireTask next
  suspects : ∀ id, suspect next = some id → suspect task = some id ∨ FindsRevoked input task id
  failures : ∀ id, failing next = some id →
    FindsFailed env input task id ∨ Overlooked env input m task ∨ m.find id = none

section Steps

variable {t : Nat} {input : Input} {m : MultiTokenManager} {lock : Option Nat} {task : Task}
variable {next : Next}

private theorem follows_of {m' : MultiTokenManager} {lock' : Option Nat} {task' : Task}
    (taken : some (⟨m', lock', task'⟩ : Next) = some next) (acquire : AcquireTask task')
    (trusting : suspect task' = none) (whole : failing task' = none) :
    Follows env input m task next.task := by
  cases taken
  refine ⟨acquire, fun id is_suspect => ?_, fun id fails => ?_⟩
  · rw [trusting] at is_suspect
    cases is_suspect
  · rw [whole] at fails
    cases fails

private theorem follows_failing {m' : MultiTokenManager} {lock' : Option Nat} {a : Attempt}
    {id : Nat} (taken : some (⟨m', lock', .reportingFailure a id⟩ : Next) = some next)
    (cause : FindsFailed env input task id ∨ Overlooked env input m task ∨ m.find id = none) :
    Follows env input m task next.task := by
  cases taken
  refine ⟨trivial, (fun i is_suspect => by cases is_suspect), fun i fails => ?_⟩
  cases fails
  exact cause

private theorem follows_withAccessToken {m' : MultiTokenManager} {lock' : Option Nat} {a : Attempt}
    {id : Nat} {c : KiroCredentials}
    (taken : some (⟨m', lock', withAccessToken (.acquire a) id c⟩ : Next) = some next)
    (cause : c.accessToken = none →
      FindsFailed env input task id ∨ Overlooked env input m task ∨ m.find id = none) :
    Follows env input m task next.task := by
  unfold withAccessToken at taken
  cases token : c.accessToken with
  | none =>
    rw [token] at taken
    exact follows_failing taken (cause token)
  | some value =>
    rw [token] at taken
    exact follows_of taken trivial rfl rfl

private theorem follows_token {a : Attempt} {id : Nat} {c : KiroCredentials}
    (taken : stepTask env t input m lock (.token (.acquire a) id c) = some next) :
    Follows env input m (.token (.acquire a) id c) next.task := by
  simp only [stepTask, tokenTask] at taken
  split_ifs at taken with key stale
  · cases value : c.kiroApiKey with
    | none =>
      rw [value] at taken
      exact follows_failing taken (.inl (.inr ⟨a, c, rfl, key, value⟩))
    | some key =>
      rw [value] at taken
      exact follows_of taken trivial rfl rfl
  · exact follows_of taken trivial rfl rfl
  · rw [Bool.not_eq_true] at key stale
    exact follows_withAccessToken taken fun none =>
      .inr (.inl (.inl ⟨a, id, c, rfl, key, stale, none⟩))

private theorem follows_rereading {a : Attempt} {id : Nat}
    (taken : stepTask env t input m lock (.rereading (.acquire a) id) = some next) :
    Follows env input m (.rereading (.acquire a) id) next.task := by
  simp only [stepTask] at taken
  cases found : m.find id with
  | none =>
    rw [found] at taken
    exact follows_failing taken (.inr (.inr found))
  | some e =>
    rw [found] at taken
    dsimp only at taken
    split_ifs at taken with stale
    · exact follows_of taken trivial rfl rfl
    · rw [Bool.not_eq_true] at stale
      exact follows_withAccessToken taken fun none =>
        .inr (.inl (.inr ⟨a, id, e, rfl, found, stale, none⟩))

private theorem follows_refreshing {a : Attempt} {id : Nat} {snapshot : KiroCredentials}
    (taken : stepTask env t input m lock (.refreshing (.acquire a) id snapshot) = some next) :
    Follows env input m (.refreshing (.acquire a) id snapshot) next.task := by
  simp only [stepTask] at taken
  cases answer : refreshToken snapshot input.refresh with
  | error e =>
    rw [answer] at taken
    cases e with
    | other message =>
      refine follows_failing taken (.inl (.inl ⟨a, snapshot, rfl, fun new other => ?_⟩))
      rw [answer] at other
      cases other
    | invalid message =>
      cases taken
      refine ⟨trivial, fun i is_suspect => .inr ?_, fun i fails => by cases fails⟩
      cases is_suspect
      exact ⟨a, snapshot, message, rfl, answer⟩
  | ok new =>
    rw [answer] at taken
    dsimp only at taken
    split_ifs at taken with expired
    · refine follows_failing taken (.inl (.inl ⟨a, snapshot, rfl, fun new' other => ?_⟩))
      rw [answer] at other
      cases other
      exact expired
    · refine follows_withAccessToken taken fun none => ?_
      obtain ⟨data, -, rfl⟩ := refreshToken_ok answer
      cases none

private theorem follows_profile {a : Attempt} {id : Nat} {c : KiroCredentials} {token : String}
    (place : task = .profile a id c token ∨ task = .fetchingProfile a id c token ∨
      task = .fallbackProfile a id c token ∨ (∃ arn, task = .settingProfile a id c token arn) ∨
      task = .finishing a id c token)
    (taken : stepTask env t input m lock task = some next) :
    Follows env input m task next.task := by
  rcases place with rfl | rfl | rfl | ⟨arn, rfl⟩ | rfl
  · simp only [stepTask] at taken
    split_ifs at taken
    · exact follows_of taken trivial rfl rfl
    · exact follows_of taken trivial rfl rfl
    · exact follows_of taken trivial rfl rfl
  · simp only [stepTask] at taken
    split at taken
    · exact follows_of taken trivial rfl rfl
    · exact follows_of taken trivial rfl rfl
    · exact follows_of taken trivial rfl rfl
  · simp only [stepTask] at taken
    split_ifs at taken
    · exact follows_of taken trivial rfl rfl
    · exact follows_of taken trivial rfl rfl
  · simp only [stepTask] at taken
    split at taken
    · exact follows_of taken trivial rfl rfl
    · exact follows_of taken trivial rfl rfl
  · exact follows_of taken trivial rfl rfl

/-- Every step of an `acquire_context` leads to another place of it. A refresh token is taken for
revoked only after the token endpoint found it so, and a token is reported as one that could not be
had where it could not be refreshed, or was overlooked. -/
theorem follows_step (acquire : AcquireTask task)
    (taken : stepTask env t input m lock task = some next) :
    Follows env input m task next.task := by
  cases task with
  | loopHead a =>
    simp only [stepTask] at taken
    split_ifs at taken
    · exact follows_of taken trivial rfl rfl
    · exact follows_of taken trivial rfl rfl
    · exact follows_of taken trivial rfl rfl
  | stickyCheck a | selecting a | reselecting a =>
    simp only [stepTask] at taken
    split at taken
    · exact follows_of taken trivial rfl rfl
    · exact follows_of taken trivial rfl rfl
  | healing a =>
    simp only [stepTask] at taken
    split_ifs at taken
    · exact follows_of taken trivial rfl rfl
    · exact follows_of taken trivial rfl rfl
  | switching a id c => exact follows_of taken trivial rfl rfl
  | token purpose id c =>
    cases purpose with
    | acquire a => exact follows_token taken
    | usage | models | preference => exact acquire.elim
  | lockWait purpose id =>
    cases purpose with
    | acquire a =>
      simp only [stepTask] at taken
      split_ifs at taken
      exact follows_of taken trivial rfl rfl
    | usage | models | preference => exact acquire.elim
  | rereading purpose id =>
    cases purpose with
    | acquire a => exact follows_rereading taken
    | usage | models | preference => exact acquire.elim
  | refreshing purpose id snapshot =>
    cases purpose with
    | acquire a => exact follows_refreshing taken
    | usage | models | preference => exact acquire.elim
  | profile a id c token => exact follows_profile (.inl rfl) taken
  | fetchingProfile a id c token => exact follows_profile (.inr (.inl rfl)) taken
  | fallbackProfile a id c token => exact follows_profile (.inr (.inr (.inl rfl))) taken
  | settingProfile a id c token arn =>
    exact follows_profile (.inr (.inr (.inr (.inl ⟨arn, rfl⟩)))) taken
  | finishing a id c token => exact follows_profile (.inr (.inr (.inr (.inr rfl)))) taken
  | recovering a id =>
    simp only [stepTask] at taken
    split at taken
    · cases taken
      exact ⟨trivial, fun i is_suspect => .inl is_suspect, fun i fails => by cases fails⟩
    · cases taken
      exact ⟨trivial, fun i is_suspect => .inl is_suspect, fun i fails => by cases fails⟩
  | reloading a id found => exact follows_of taken trivial rfl rfl
  | reportingInvalid a id | reportingFailure a id =>
    simp only [stepTask] at taken
    split_ifs at taken
    · exact follows_of taken trivial rfl rfl
    · exact follows_of taken trivial rfl rfl
  | returned model context | failed => cases taken
  | idle | done | reading _ _ | querying _ _ | awaitingUsage _ | fillingTitle _ _
  | fillingEmail _ _ | forceReading _ | forceWaiting _ _ | forceRefreshing _ _ | adding _
  | addRefreshing _ | addChoosing _ _ | addPushing _ _ => exact acquire.elim

theorem force_step {id : Nat} (force : ForceTask id task)
    (taken : stepTask env t input m lock task = some next) : ForceTask id next.task := by
  cases task with
  | forceReading i =>
    simp only [stepTask] at taken
    split at taken
    · cases taken
      trivial
    · cases taken
      exact force
  | forceWaiting i snapshot =>
    simp only [stepTask] at taken
    split_ifs at taken
    cases taken
    exact force
  | forceRefreshing i snapshot =>
    simp only [stepTask] at taken
    split at taken
    · cases taken
      trivial
    · cases taken
      trivial
  | done | failed => cases taken
  | _ => exact force.elim

end Steps

def WellPhased : Phase → Prop
  | .acquiring _ task => AcquireTask task
  | .refreshing _ id task => ForceTask id task
  | _ => True

section Calls

variable {t : Nat} {input : CallInput} {m : MultiTokenManager} {lock : Option Nat} {phase : Phase}
variable {next : CallState}

abbrev Effects (event : Option Event) (m m' : MultiTokenManager) : Prop :=
  List.Forall₂ (fun e e' => Effect event (marksOf e) (marksOf e')) m.entries m'.entries

theorem effects_refl (event : Option Event) : Effects event m m :=
  List.forall₂_same.mpr fun _ _ => .kept

theorem effects_task {task : Task} {made : Next}
    (taken : stepTask env t input.pool m lock task = some made)
    (kept : ∀ id c, task ≠ .addPushing id c) :
    Effects (taskEvent input.pool task) m made.manager := by
  have changes := forall₂_stepTask (s := ⟨m, lock, fun _ => task⟩) (a := .task t input.pool) rfl rfl
    taken kept
  exact changes.imp fun _ _ change => effect_of_change (.task t input.pool) change

theorem effects_operation (env : Env) (op : Operation) {event : Option Event}
    (announces : Announces ⟨m, none, fun _ => .idle⟩ (.operation op) event)
    (kept : ∀ id, op ≠ .deleteEntry id) : Effects event m (op.apply env m) := by
  have changes : List.Forall₂ (Change env ⟨m, none, fun _ => .idle⟩ (.operation op)) m.entries
      (op.apply env m).entries := forall₂_apply rfl kept
  exact changes.imp fun _ _ change => effect_of_change announces change

theorem effects_reportFailure (env : Env) (id : Nat) (stamp : String) :
    Effects (some (.refused id)) m (m.reportFailure id stamp).1 :=
  effects_operation env (.reportFailure id stamp) (.refused id stamp)
    (fun _ other => by cases other)

theorem effects_answered (env : Env) {l : Loop} {context : CallContext} :
    Effects (phaseEvent p input (.requesting l context)) m
      (p.answered input m l context.id).1 := by
  unfold Provider.answered phaseEvent
  cases input.answer with
  | unsendable => exact effects_refl _
  | networkError => exact effects_refl _
  | response status body retryAfter =>
    dsimp only
    cases p.verdict (context.id ∈ l.forceRefreshed) status body with
    | success =>
      exact effects_operation env (.reportSuccess context.id input.pool.stamp) (.succeeded _ _)
        (fun _ other => by cases other)
    | quotaExhausted =>
      exact effects_operation env (.reportQuotaExhausted context.id input.pool.stamp)
        (.exhausted _ _) (fun _ other => by cases other)
    | failure => exact effects_reportFailure env context.id input.pool.stamp
    | accountThrottled =>
      exact effects_operation env
        (.reportAccountThrottled context.id input.pool.now input.later p.cooldown)
        (.throttled _ _ _ _) (fun _ other => by cases other)
    | rateLimited =>
      cases l.policy.credentialSwitchOn429 with
      | true =>
        exact effects_operation env (.reportRateLimited context.id input.pool.now input.later _)
          (.limited _ _ _ _) (fun _ other => by cases other)
      | false => exact effects_refl _
    | fatal | forceRefresh | transient => exact effects_refl _

theorem answered_phase (p : Provider) (input : CallInput) (m : MultiTokenManager) (l : Loop)
    (id : Nat) :
    (p.answered input m l id).2 = .failed ∨ (p.answered input m l id).2 = l.next ∨
      (p.answered input m l id).2 = .succeeded id ∨
      (p.answered input m l id).2 =
        .refreshing { l with forceRefreshed := id :: l.forceRefreshed } id (.forceReading id) := by
  have either_way : ∀ left, l.unless left = .failed ∨ l.unless left = l.next ∨
      l.unless left = .succeeded id ∨ l.unless left =
        .refreshing { l with forceRefreshed := id :: l.forceRefreshed } id (.forceReading id) := by
    intro left
    cases left with
    | true => exact .inr (.inl rfl)
    | false => exact .inl rfl
  unfold Provider.answered
  cases input.answer with
  | unsendable => exact .inl rfl
  | networkError => exact .inr (.inl rfl)
  | response status body retryAfter =>
    dsimp only
    cases p.verdict (id ∈ l.forceRefreshed) status body with
    | success => exact .inr (.inr (.inl rfl))
    | fatal => exact .inl rfl
    | forceRefresh => exact .inr (.inr (.inr rfl))
    | transient => exact .inr (.inl rfl)
    | quotaExhausted | failure | accountThrottled => exact either_way _
    | rateLimited =>
      dsimp only
      split
      · exact .inr (.inl rfl)
      · exact .inl rfl

/-- What an event clears is cleared. -/
structure Cleared (event : Option Event) (m : MultiTokenManager) : Prop where
  success : ∀ e ∈ m.entries, event = some (.succeeded e.id) →
    e.failureCount = 0 ∧ e.refreshFailureCount = 0
  token : ∀ e ∈ m.entries, event = some (.tokenHad e.id) → e.refreshFailureCount = 0

private theorem cleared_of_ne {event : Option Event} {m : MultiTokenManager}
    (no_success : ∀ id, event ≠ some (.succeeded id)) (no_token : ∀ id, event ≠ some (.tokenHad id)) :
    Cleared event m :=
  ⟨fun e _ is_event => absurd is_event (no_success e.id),
    fun e _ is_event => absurd is_event (no_token e.id)⟩

theorem cleared_task {task : Task} {made : Next} (nodup : (ids m).Nodup)
    (taken : stepTask env t input.pool m lock task = some made) :
    Cleared (taskEvent input.pool task) made.manager := by
  cases task with
  | finishing a id c token =>
    cases taken
    refine ⟨(fun e _ other => by cases other), ?_⟩
    intro e mem is_event
    have here : e.id = id := by
      cases is_event
      rfl
    obtain ⟨e₀, -, rfl⟩ := changed_of_mem_update nodup mem here
    rfl
  | forceRefreshing id snapshot =>
    simp only [stepTask] at taken
    cases answer : refreshToken snapshot input.pool.refresh with
    | error e =>
      rw [taskEvent, answer]
      exact cleared_of_ne (fun _ other => by cases other) (fun _ other => by cases other)
    | ok new =>
      rw [answer] at taken
      cases taken
      rw [taskEvent, answer]
      refine ⟨(fun e _ other => by cases other), ?_⟩
      intro e mem is_event
      have here : e.id = id := by
        cases is_event
        rfl
      have nodup : (ids (writeBack m id new)).Nodup := by
        have same : ids (writeBack m id new) = ids m := ids_update fun _ => rfl
        rw [same]
        exact nodup
      obtain ⟨e₀, -, rfl⟩ := changed_of_mem_update nodup mem here
      rfl
  | _ => exact cleared_of_ne (fun _ other => by cases other) (fun _ other => by cases other)

theorem cleared_answered {l : Loop} {context : CallContext} (nodup : (ids m).Nodup) :
    Cleared (phaseEvent p input (.requesting l context)) (p.answered input m l context.id).1 := by
  unfold Provider.answered phaseEvent
  cases input.answer with
  | unsendable | networkError =>
    exact cleared_of_ne (fun _ other => by cases other) (fun _ other => by cases other)
  | response status body retryAfter =>
    dsimp only
    cases p.verdict (context.id ∈ l.forceRefreshed) status body with
    | success =>
      refine ⟨?_, fun e _ other => by cases other⟩
      intro e mem is_event
      have here : e.id = context.id := (Event.succeeded.inj (Option.some.inj is_event)).symm
      obtain ⟨e₀, -, rfl⟩ := changed_of_mem_update nodup mem here
      exact ⟨rfl, rfl⟩
    | _ => exact cleared_of_ne (fun _ other => by cases other) (fun _ other => by cases other)

theorem cleared_call (nodup : (ids m).Nodup)
    (taken : stepCall p env t ⟨m, lock, phase⟩ input = some next) :
    Cleared (phaseEvent p input phase) next.manager := by
  cases phase with
  | acquiring l task =>
    by_cases waits : task.waits = true
    · rw [stepCall_acquiring rfl waits] at taken
      obtain ⟨made, stepped, rfl⟩ := Option.map_eq_some_iff.mp taken
      have event : phaseEvent p input (.acquiring l task) = taskEvent input.pool task := by
        cases task with
        | returned _ _ => cases waits
        | _ => rfl
      rw [event]
      exact cleared_task nodup stepped
    · cases task with
      | returned model context =>
        rw [phaseEvent]
        cases p.endpointFor context.credentials with
        | ok name =>
          exact cleared_of_ne (fun _ other => by cases other) (fun _ other => by cases other)
        | error message =>
          exact cleared_of_ne (fun _ other => by cases other) (fun _ other => by cases other)
      | idle | done | failed =>
        exact cleared_of_ne (fun _ other => by cases other) (fun _ other => by cases other)
      | _ => exact absurd rfl waits
  | requesting l context =>
    cases taken
    exact cleared_answered nodup
  | refreshing l id task =>
    by_cases waits : task.waits = true
    · rw [stepCall_refreshing rfl waits] at taken
      obtain ⟨made, stepped, rfl⟩ := Option.map_eq_some_iff.mp taken
      have event : phaseEvent p input (.refreshing l id task) = taskEvent input.pool task := by
        cases task with
        | failed => cases waits
        | _ => rfl
      rw [event]
      exact cleared_task nodup stepped
    · cases task with
      | idle | done | failed | returned _ _ =>
        exact cleared_of_ne (fun _ other => by cases other) (fun _ other => by cases other)
      | _ => exact absurd rfl waits
  | head l | succeeded id | failed =>
    exact cleared_of_ne (fun _ other => by cases other) (fun _ other => by cases other)

/-- Every step of a call has the effects of its event, and leads to a place of the call. -/
theorem effects_call (well : WellPhased phase)
    (taken : stepCall p env t ⟨m, lock, phase⟩ input = some next) :
    Effects (phaseEvent p input phase) m next.manager ∧ WellPhased next.phase := by
  cases phase with
  | head l =>
    simp only [stepCall] at taken
    split_ifs at taken
    · cases taken
      exact ⟨effects_refl _, trivial⟩
    · cases taken
      exact ⟨effects_refl _, trivial⟩
  | acquiring l task =>
    by_cases waits : task.waits = true
    · rw [stepCall_acquiring rfl waits] at taken
      obtain ⟨made, stepped, rfl⟩ := Option.map_eq_some_iff.mp taken
      have event : phaseEvent p input (.acquiring l task) = taskEvent input.pool task := by
        cases task with
        | returned _ _ => cases waits
        | _ => rfl
      rw [event]
      refine ⟨effects_task stepped ?_, (follows_step well stepped).acquire⟩
      rintro id c rfl
      exact well
    · cases task with
      | returned model context =>
        simp only [stepCall] at taken
        split at taken
        · rename_i name resolved
          cases taken
          rw [phaseEvent, resolved]
          exact ⟨effects_refl _, trivial⟩
        · rename_i message unresolved
          cases taken
          rw [phaseEvent, unresolved]
          exact ⟨effects_reportFailure env _ _, trivial⟩
      | failed =>
        cases taken
        exact ⟨effects_refl _, trivial⟩
      | idle | done => exact well.elim
      | _ => exact absurd rfl waits
  | requesting l context =>
    cases taken
    refine ⟨effects_answered env, ?_⟩
    show WellPhased (p.answered input m l context.id).2
    rcases answered_phase p input m l context.id with leads | leads | leads | leads
    · rw [leads]
      trivial
    · rw [leads]
      trivial
    · rw [leads]
      trivial
    · rw [leads]
      exact rfl
  | refreshing l id task =>
    by_cases waits : task.waits = true
    · rw [stepCall_refreshing rfl waits] at taken
      obtain ⟨made, stepped, rfl⟩ := Option.map_eq_some_iff.mp taken
      have event : phaseEvent p input (.refreshing l id task) = taskEvent input.pool task := by
        cases task with
        | failed => cases waits
        | _ => rfl
      rw [event]
      refine ⟨effects_task stepped ?_, force_step well stepped⟩
      rintro i c rfl
      exact well
    · cases task with
      | done =>
        cases taken
        exact ⟨effects_refl _, trivial⟩
      | failed =>
        cases taken
        refine ⟨effects_reportFailure env id input.pool.stamp, ?_⟩
        show WellPhased (l.unless (m.reportFailure id input.pool.stamp).2)
        cases (m.reportFailure id input.pool.stamp).2 <;> trivial
      | idle | returned _ _ => exact well.elim
      | _ => exact absurd rfl waits
  | succeeded id | failed => cases taken

end Calls

def countBefore (count : CredentialEntry → Nat) (m : MultiTokenManager) (id : Nat) : Nat :=
  ((m.entries.filter (·.id = id)).map count).foldr max 0

/-- How often in a row a credential's answer was refused or its endpoint unknown, up to the last
success. A refusal that gets a forced refresh counts when that has failed. -/
def refusals (p : Provider) (m : MultiTokenManager) : List (ApiSystem × ApiAction) → Nat → Nat
  | [], id => countBefore (·.failureCount) m id
  | (s, a) :: earlier, id =>
      match eventOf p s a with
      | some (.succeeded i) => if i = id then 0 else refusals p m earlier id
      | some (.refused i) => if i = id then refusals p m earlier id + 1 else refusals p m earlier id
      | _ => refusals p m earlier id

def tokenFailures (p : Provider) (m : MultiTokenManager) :
    List (ApiSystem × ApiAction) → Nat → Nat
  | [], id => countBefore (·.refreshFailureCount) m id
  | (s, a) :: earlier, id =>
      match eventOf p s a with
      | some (.succeeded i) | some (.tokenHad i) =>
          if i = id then 0 else tokenFailures p m earlier id
      | some (.tokenFailed i) =>
          if i = id then tokenFailures p m earlier id + 1 else tokenFailures p m earlier id
      | _ => tokenFailures p m earlier id

/-- The call found the refresh token of the credential revoked. -/
def FoundRevoked (trace : List (ApiSystem × ApiAction)) (t id : Nat) : Prop :=
  ∃ step ∈ trace, ∃ input l task, step.2 = .step t input ∧
    step.1.phases t = some (.acquiring l task) ∧ FindsRevoked input.pool task id

def FoundFailed (env : Env) (trace : List (ApiSystem × ApiAction)) (t id : Nat) : Prop :=
  ∃ step ∈ trace, ∃ input l task, step.2 = .step t input ∧
    step.1.phases t = some (.acquiring l task) ∧ FindsFailed env input.pool task id

/-- The step overlooks no missing access token. -/
def Tokened (env : Env) (s : ApiSystem) (a : ApiAction) : Prop :=
  ∀ t input l task, a = .step t input → s.phases t = some (.acquiring l task) →
    ¬ Overlooked env input.pool s.manager task

/-- Each token of the credential that could not be had is one that the call could not refresh. -/
def OwnFailures (p : Provider) (env : Env) (trace : List (ApiSystem × ApiAction)) (id : Nat) :
    Prop :=
  ∀ later earlier s a, trace = later ++ (s, a) :: earlier →
    eventOf p s a = some (.tokenFailed id) →
    ∃ t input, a = .step t input ∧ FoundFailed env earlier t id

/-- What a credential is disabled for, by a step that a trace ends with. -/
def Warranted (p : Provider) (env : Env) (m : MultiTokenManager)
    (trace : List (ApiSystem × ApiAction)) (s : ApiSystem) (a : ApiAction) (id : Nat) : Prop :=
  match eventOf p s a with
  | some (.exhausted i) => i = id
  | some (.refused i) => i = id ∧ maxFailuresPerCredential ≤ refusals p m ((s, a) :: trace) id
  | some (.tokenFailed i) =>
      i = id ∧ maxFailuresPerCredential ≤ tokenFailures p m ((s, a) :: trace) id ∧
        OwnFailures p env ((s, a) :: trace) id
  | some (.tokenRevoked i) => i = id ∧ ∃ t input, a = .step t input ∧ FoundRevoked trace t id
  | _ => False

/-- The counters of an entry are no more than what was counted. -/
structure Counted (p : Provider) (m : MultiTokenManager) (trace : List (ApiSystem × ApiAction))
    (k : Marks) : Prop where
  refused : k.failureCount ≤ refusals p m trace k.id ∨
    k.disabled = true ∧ k.disabledReason = some .quotaExceeded
  tokens : k.refreshFailureCount ≤ tokenFailures p m trace k.id

theorem le_countBefore {m : MultiTokenManager} (count : CredentialEntry → Nat)
    {e : CredentialEntry} (mem : e ∈ m.entries) : count e ≤ countBefore count m e.id := by
  unfold countBefore
  have listed : count e ∈ (m.entries.filter (·.id = e.id)).map count :=
    List.mem_map_of_mem (List.mem_filter.mpr ⟨mem, by simp⟩)
  revert listed
  induction (m.entries.filter (·.id = e.id)).map count with
  | nil =>
    intro listed
    cases listed
  | cons n ns ih =>
    intro listed
    rcases List.mem_cons.mp listed with rfl | later
    · exact Nat.le_max_left _ _
    · exact (ih later).trans (Nat.le_max_right _ _)

section Runs

variable {m : MultiTokenManager} {trace : List (ApiSystem × ApiAction)} {s s' : ApiSystem}
variable {a : ApiAction} {k k' : Marks}

theorem refusals_cons (id : Nat) : refusals p m ((s, a) :: trace) id =
    match eventOf p s a with
    | some (.succeeded i) => if i = id then 0 else refusals p m trace id
    | some (.refused i) => if i = id then refusals p m trace id + 1 else refusals p m trace id
    | _ => refusals p m trace id := rfl

theorem tokenFailures_cons (id : Nat) : tokenFailures p m ((s, a) :: trace) id =
    match eventOf p s a with
    | some (.succeeded i) | some (.tokenHad i) =>
        if i = id then 0 else tokenFailures p m trace id
    | some (.tokenFailed i) =>
        if i = id then tokenFailures p m trace id + 1 else tokenFailures p m trace id
    | _ => tokenFailures p m trace id := rfl

theorem refusals_le_cons {id : Nat} (other : eventOf p s a ≠ some (.succeeded id)) :
    refusals p m trace id ≤ refusals p m ((s, a) :: trace) id := by
  rw [refusals_cons]
  split
  · rename_i i is_event
    have ne : i ≠ id := by
      rintro rfl
      exact other is_event
    rw [if_neg ne]
  · split_ifs
    · exact Nat.le_succ _
    · exact le_rfl
  · exact le_rfl

theorem tokenFailures_le_cons {id : Nat} (no_success : eventOf p s a ≠ some (.succeeded id))
    (no_token : eventOf p s a ≠ some (.tokenHad id)) :
    tokenFailures p m trace id ≤ tokenFailures p m ((s, a) :: trace) id := by
  rw [tokenFailures_cons]
  split
  · rename_i i is_event
    have ne : i ≠ id := by
      rintro rfl
      exact no_success is_event
    rw [if_neg ne]
  · rename_i i is_event
    have ne : i ≠ id := by
      rintro rfl
      exact no_token is_event
    rw [if_neg ne]
  · split_ifs
    · exact Nat.le_succ _
    · exact le_rfl
  · exact le_rfl

theorem refusals_of_refused {id : Nat} (cause : eventOf p s a = some (.refused id)) :
    refusals p m ((s, a) :: trace) id = refusals p m trace id + 1 := by
  rw [refusals_cons, cause]
  exact if_pos rfl

theorem tokenFailures_of_failed {id : Nat} (cause : eventOf p s a = some (.tokenFailed id)) :
    tokenFailures p m ((s, a) :: trace) id = tokenFailures p m trace id + 1 := by
  rw [tokenFailures_cons, cause]
  exact if_pos rfl

theorem Effect.id_eq {event : Option Event} (effect : Effect event k k') : k'.id = k.id := by
  cases effect <;> rfl

theorem Counted.step (h : Counted p m trace k) (effect : Effect (eventOf p s a) k k')
    (success : eventOf p s a = some (.succeeded k'.id) →
      k'.failureCount = 0 ∧ k'.refreshFailureCount = 0)
    (token : eventOf p s a = some (.tokenHad k'.id) → k'.refreshFailureCount = 0) :
    Counted p m ((s, a) :: trace) k' := by
  have refused : k'.failureCount ≤ k.failureCount →
      (k'.disabled = k.disabled ∧ k'.disabledReason = k.disabledReason) →
      k'.failureCount ≤ refusals p m ((s, a) :: trace) k'.id ∨
        k'.disabled = true ∧ k'.disabledReason = some .quotaExceeded := by
    intro le same
    by_cases succeeded : eventOf p s a = some (.succeeded k'.id)
    · rw [(success succeeded).1]
      exact .inl (Nat.zero_le _)
    · rcases h.refused with counted | quota
      · rw [← effect.id_eq] at counted
        exact .inl (le.trans (counted.trans (refusals_le_cons succeeded)))
      · rw [same.1, same.2]
        exact .inr quota
  have tokens : k'.refreshFailureCount ≤ k.refreshFailureCount →
      k'.refreshFailureCount ≤ tokenFailures p m ((s, a) :: trace) k'.id := by
    intro le
    by_cases succeeded : eventOf p s a = some (.succeeded k'.id)
    · rw [(success succeeded).2]
      exact Nat.zero_le _
    · by_cases had : eventOf p s a = some (.tokenHad k'.id)
      · rw [token had]
        exact Nat.zero_le _
      · have counted := h.tokens
        rw [← effect.id_eq] at counted
        exact le.trans (counted.trans (tokenFailures_le_cons succeeded had))
  cases effect with
  | kept => exact ⟨refused le_rfl ⟨rfl, rfl⟩, tokens le_rfl⟩
  | succeeded cause => exact ⟨.inl (Nat.zero_le _), Nat.zero_le _⟩
  | refused cause =>
    refine ⟨?_, tokens le_rfl⟩
    rcases h.refused with counted | quota
    · refine .inl ?_
      rw [refusals_of_refused cause]
      exact Nat.succ_le_succ counted
    · exact .inr quota
  | shutDown cause reached enabled =>
    refine ⟨.inl ?_, tokens le_rfl⟩
    rcases h.refused with counted | quota
    · rw [refusals_of_refused cause]
      exact Nat.succ_le_succ counted
    · rw [quota.1] at enabled
      cases enabled
  | exhausted cause => exact ⟨.inr ⟨rfl, rfl⟩, tokens le_rfl⟩
  | tokenFailed cause =>
    refine ⟨refused le_rfl ⟨rfl, rfl⟩, ?_⟩
    rw [tokenFailures_of_failed cause]
    exact Nat.succ_le_succ h.tokens
  | tokenShutDown cause reached enabled =>
    constructor
    · rcases h.refused with counted | quota
      · have other : eventOf p s a ≠ some (.succeeded k.id) := by
          intro is_event
          rw [cause] at is_event
          cases is_event
        exact .inl (counted.trans (refusals_le_cons other))
      · rw [quota.1] at enabled
        cases enabled
    · rw [tokenFailures_of_failed cause]
      exact Nat.succ_le_succ h.tokens
  | revoked cause enabled =>
    refine ⟨?_, tokens le_rfl⟩
    rcases h.refused with counted | quota
    · have other : eventOf p s a ≠ some (.succeeded k.id) := by
        intro is_event
        rw [cause] at is_event
        cases is_event
      exact .inl (counted.trans (refusals_le_cons other))
    · rw [quota.1] at enabled
      cases enabled
  | tokenHad cause => exact ⟨refused le_rfl ⟨rfl, rfl⟩, Nat.zero_le _⟩
  | healed failures => exact ⟨.inl (Nat.zero_le _), tokens le_rfl⟩
  | reloaded => exact ⟨.inl (Nat.zero_le _), Nat.zero_le _⟩

end Runs

def isRequest : Phase → Bool
  | .requesting _ _ => true
  | _ => false

def sends (t : Nat) (s : ApiSystem) : ApiAction → Bool
  | .step t' _ => t' == t && (s.phases t).any isRequest
  | _ => false

def requests (t : Nat) (trace : List (ApiSystem × ApiAction)) : Nat :=
  trace.countP fun step => sends t step.1 step.2

def requestLimit (p : Provider) (m : MultiTokenManager) : Nat :=
  match RetryPolicy.effective p.retryMode p.retryPolicy with
  | .error _ => 0
  | .ok policy => maxRetries m.entries.length policy

def Progress (limit sent : Nat) : Phase → Prop
  | .head l => l.maxRetries = limit ∧ sent ≤ l.attempt ∧ l.attempt ≤ limit
  | .acquiring l _ | .requesting l _ => l.maxRetries = limit ∧ sent ≤ l.attempt ∧ l.attempt < limit
  | .refreshing l _ _ => l.maxRetries = limit ∧ sent ≤ l.attempt + 1 ∧ l.attempt < limit
  | .succeeded _ | .failed => sent ≤ limit

theorem Progress.sent_le {limit sent : Nat} {phase : Phase} (progress : Progress limit sent phase) :
    sent ≤ limit := by
  cases phase with
  | head l => exact progress.2.1.trans progress.2.2
  | acquiring l task | requesting l context => exact progress.2.1.trans progress.2.2.le
  | refreshing l id task => exact progress.2.1.trans progress.2.2
  | succeeded id | failed => exact progress

section

variable {t limit sent : Nat} {input : CallInput} {m : MultiTokenManager} {lock : Option Nat}
variable {phase : Phase} {next : CallState} {l : Loop}

private theorem progress_again (limited : l.maxRetries = limit) (counted : sent ≤ l.attempt + 1)
    (below : l.attempt < limit) : Progress limit sent l.next := ⟨limited, counted, below⟩

private theorem progress_unless (limited : l.maxRetries = limit) (counted : sent ≤ l.attempt + 1)
    (below : l.attempt < limit) (left : Bool) : Progress limit sent (l.unless left) := by
  cases left with
  | true => exact ⟨limited, counted, below⟩
  | false => exact counted.trans below

theorem progress_answered {context : CallContext}
    (progress : Progress limit sent (.requesting l context)) (id : Nat) :
    Progress limit (sent + 1) (p.answered input m l id).2 := by
  obtain ⟨limited, counted, below⟩ := progress
  have counted := Nat.succ_le_succ counted
  have ended : sent + 1 ≤ limit := counted.trans below
  rcases answered_phase p input m l id with leads | leads | leads | leads
  · rw [leads]
    exact ended
  · rw [leads]
    exact progress_again limited counted below
  · rw [leads]
    exact ended
  · rw [leads]
    exact ⟨limited, counted, below⟩

theorem progress_call (progress : Progress limit sent phase)
    (taken : stepCall p env t ⟨m, lock, phase⟩ input = some next) :
    Progress limit (sent + if isRequest phase then 1 else 0) next.phase := by
  cases phase with
  | head l =>
    simp only [stepCall] at taken
    split_ifs at taken with below
    · cases taken
      rw [progress.1] at below
      exact ⟨progress.1, progress.2.1, below⟩
    · cases taken
      exact progress.sent_le
  | acquiring l task =>
    obtain ⟨limited, counted, below⟩ := progress
    by_cases waits : task.waits = true
    · rw [stepCall_acquiring rfl waits] at taken
      obtain ⟨made, stepped, rfl⟩ := Option.map_eq_some_iff.mp taken
      exact ⟨limited, counted, below⟩
    · cases task with
      | returned model context =>
        simp only [stepCall] at taken
        split at taken
        · cases taken
          exact ⟨limited, counted, below⟩
        · cases taken
          exact progress_again limited (counted.trans (Nat.le_succ _)) below
      | failed =>
        cases taken
        exact progress_again limited (counted.trans (Nat.le_succ _)) below
      | idle | done => cases taken
      | _ => exact absurd rfl waits
  | requesting l context =>
    cases taken
    exact progress_answered progress context.id
  | refreshing l id task =>
    obtain ⟨limited, counted, below⟩ := progress
    by_cases waits : task.waits = true
    · rw [stepCall_refreshing rfl waits] at taken
      obtain ⟨made, stepped, rfl⟩ := Option.map_eq_some_iff.mp taken
      exact ⟨limited, counted, below⟩
    · cases task with
      | done =>
        cases taken
        exact progress_again limited counted below
      | failed =>
        cases taken
        exact progress_unless limited counted below _
      | idle | returned _ _ => cases taken
      | _ => exact absurd rfl waits
  | succeeded id | failed => cases taken

end

def FoundOverlooked (env : Env) (trace : List (ApiSystem × ApiAction)) (t : Nat) : Prop :=
  ∃ step ∈ trace, ∃ input l task, step.2 = .step t input ∧
    step.1.phases t = some (.acquiring l task) ∧ Overlooked env input.pool step.1.manager task

/-- What the calls keep on a pool `m`. -/
structure Tracked (p : Provider) (env : Env) (m : MultiTokenManager)
    (trace : List (ApiSystem × ApiAction)) (s : ApiSystem) : Prop where
  same_ids : ids s.manager = ids m
  counted : ∀ e ∈ s.manager.entries, Counted p m trace (marksOf e)
  well : ∀ t phase, s.phases t = some phase → WellPhased phase
  suspects : ∀ t l task id, s.phases t = some (.acquiring l task) → suspect task = some id →
    FoundRevoked trace t id
  failures : ∀ t l task id, s.phases t = some (.acquiring l task) → failing task = some id →
    FoundFailed env trace t id ∨ FoundOverlooked env trace t ∨ id ∉ ids m

/-- No call sends more than it may. -/
def Bounded (p : Provider) (trace : List (ApiSystem × ApiAction)) (s : ApiSystem) : Prop :=
  (∀ t, s.phases t = none → requests t trace = 0 ∧ ∀ step ∈ trace, ∀ model,
    step.2 ≠ .begin t model) ∧
  ∀ t, ∀ step ∈ trace, ∀ model, step.2 = .begin t model → ∃ phase, s.phases t = some phase ∧
    Progress (requestLimit p step.1.manager) (requests t trace) phase

section Runs

variable {m : MultiTokenManager} {trace : List (ApiSystem × ApiAction)} {s s' : ApiSystem}
variable {a : ApiAction} {k k' : Marks}

theorem step_cases (taken : ApiSystem.step p env s a = some s') :
    (∃ t model, a = .begin t model ∧ s.phases t = none ∧
      s' = { s with
        phases := Function.update s.phases t (some (p.call s.manager model).phase) }) ∨
    (∃ t input phase next, a = .step t input ∧ s.phases t = some phase ∧
      stepCall p env t ⟨s.manager, s.refreshLock, phase⟩ input = some next ∧
      s' = ⟨next.manager, next.refreshLock, Function.update s.phases t (some next.phase)⟩) ∨
    ∃ t phase, a = .drop t ∧ s.phases t = some phase ∧
      s' = ⟨s.manager, release t s.refreshLock, Function.update s.phases t (some .failed)⟩ := by
  cases a with
  | begin t model =>
    cases phase : s.phases t with
    | none =>
      rw [ApiSystem.step, phase] at taken
      cases taken
      exact .inl ⟨t, model, rfl, phase, rfl⟩
    | some _ =>
      rw [ApiSystem.step, phase] at taken
      cases taken
  | step t input =>
    obtain ⟨phase, found, stepped⟩ := Option.bind_eq_some_iff.mp taken
    obtain ⟨next, made, rfl⟩ := Option.map_eq_some_iff.mp stepped
    exact .inr (.inl ⟨t, input, phase, next, rfl, found, made, rfl⟩)
  | drop t =>
    obtain ⟨phase, found, rfl⟩ := Option.map_eq_some_iff.mp taken
    exact .inr (.inr ⟨t, phase, rfl, found, rfl⟩)

theorem phase_call (p : Provider) (m : MultiTokenManager) (model : Option String) :
    (∃ l, (p.call m model).phase = .head l ∧ l.attempt = 0 ∧ l.maxRetries = requestLimit p m) ∨
      (p.call m model).phase = .failed := by
  unfold Provider.call requestLimit
  cases RetryPolicy.effective p.retryMode p.retryPolicy with
  | error e => exact .inr rfl
  | ok policy => exact .inl ⟨_, rfl, rfl, rfl⟩

theorem effects_step (tracked : Tracked p env m trace s)
    (taken : ApiSystem.step p env s a = some s') :
    Effects (eventOf p s a) s.manager s'.manager := by
  rcases step_cases taken with ⟨t, model, rfl, fresh, rfl⟩ |
    ⟨t, input, phase, next, rfl, found, made, rfl⟩ | ⟨t, phase, rfl, found, rfl⟩
  · exact effects_refl _
  · have event : eventOf p s (.step t input) = phaseEvent p input phase := by
      rw [eventOf, found]
      rfl
    rw [event]
    exact (effects_call (tracked.well t phase found) made).1
  · exact effects_refl _

theorem cleared_step (nodup : (ids s.manager).Nodup)
    (taken : ApiSystem.step p env s a = some s') : Cleared (eventOf p s a) s'.manager := by
  rcases step_cases taken with ⟨t, model, rfl, fresh, rfl⟩ |
    ⟨t, input, phase, next, rfl, found, made, rfl⟩ | ⟨t, phase, rfl, found, rfl⟩
  · exact cleared_of_ne (fun _ other => by cases other) (fun _ other => by cases other)
  · have event : eventOf p s (.step t input) = phaseEvent p input phase := by
      rw [eventOf, found]
      rfl
    rw [event]
    exact cleared_call nodup made
  · exact cleared_of_ne (fun _ other => by cases other) (fun _ other => by cases other)

theorem ids_of_effects {event : Option Event} {m m' : MultiTokenManager}
    (effects : Effects event m m') : ids m' = ids m := by
  have same : List.Forall₂ (fun e e' : CredentialEntry => e'.id = e.id) m.entries m'.entries :=
    effects.imp fun e e' effect => by
      have kept := effect.id_eq
      exact kept
  have renamed : List.Forall₂ (· = ·) (m'.entries.map (·.id)) (m.entries.map (·.id)) :=
    List.forall₂_map_left_iff.mpr (List.forall₂_map_right_iff.mpr same.flip)
  rwa [List.forall₂_eq_eq_eq] at renamed

theorem well_step (tracked : Tracked p env m trace s) (taken : ApiSystem.step p env s a = some s')
    (t : Nat) (phase : Phase) (stands : s'.phases t = some phase) : WellPhased phase := by
  have others : ∀ t₀ phase₀, s'.phases = Function.update s.phases t₀ (some phase₀) →
      WellPhased phase₀ → WellPhased phase := by
    intro t₀ phase₀ updated well
    rw [updated] at stands
    by_cases eq : t = t₀
    · subst eq
      rw [Function.update_self] at stands
      cases stands
      exact well
    · rw [Function.update_of_ne eq] at stands
      exact tracked.well t phase stands
  rcases step_cases taken with ⟨t₀, model, rfl, fresh, rfl⟩ |
    ⟨t₀, input, phase₀, next, rfl, found, made, rfl⟩ | ⟨t₀, phase₀, rfl, found, rfl⟩
  · refine others t₀ _ rfl ?_
    rcases phase_call p s.manager model with ⟨l, begins, -, -⟩ | fails
    · rw [begins]
      trivial
    · rw [fails]
      trivial
  · exact others t₀ _ rfl (effects_call (tracked.well t₀ phase₀ found) made).2
  · exact others t₀ _ rfl trivial

/-- A call comes to a place of `acquire_context` from its head, or by a step of `acquire_context`. -/
theorem acquiring_call {t : Nat} {input : CallInput} {m : MultiTokenManager} {lock : Option Nat}
    {phase : Phase} {next : CallState} {l : Loop} {task : Task} (well : WellPhased phase)
    (taken : stepCall p env t ⟨m, lock, phase⟩ input = some next)
    (leads : next.phase = .acquiring l task) :
    (∃ attempt, task = .loopHead attempt) ∨
      ∃ task₀ made, phase = .acquiring l task₀ ∧ AcquireTask task₀ ∧
        stepTask env t input.pool m lock task₀ = some made ∧ made.task = task := by
  cases phase with
  | head l₀ =>
    simp only [stepCall] at taken
    split_ifs at taken
    · cases taken
      cases leads
      exact .inl ⟨_, rfl⟩
    · cases taken
      cases leads
  | acquiring l₀ task₀ =>
    by_cases waits : task₀.waits = true
    · rw [stepCall_acquiring rfl waits] at taken
      obtain ⟨made, stepped, rfl⟩ := Option.map_eq_some_iff.mp taken
      cases leads
      exact .inr ⟨task₀, made, rfl, well, stepped, rfl⟩
    · cases task₀ with
      | returned model context =>
        simp only [stepCall] at taken
        split at taken
        · cases taken
          cases leads
        · cases taken
          cases leads
      | failed =>
        cases taken
        cases leads
      | idle | done => exact well.elim
      | _ => exact absurd rfl waits
  | requesting l₀ context =>
    have next_eq := Option.some.inj taken
    have leads : (p.answered input m l₀ context.id).2 = .acquiring l task := by
      rw [← next_eq] at leads
      exact leads
    rcases answered_phase p input m l₀ context.id with ends | ends | ends | ends
    · rw [ends] at leads
      cases leads
    · rw [ends] at leads
      cases leads
    · rw [ends] at leads
      cases leads
    · rw [ends] at leads
      cases leads
  | refreshing l₀ i task₀ =>
    by_cases waits : task₀.waits = true
    · rw [stepCall_refreshing rfl waits] at taken
      obtain ⟨made, stepped, rfl⟩ := Option.map_eq_some_iff.mp taken
      cases leads
    · cases task₀ with
      | done =>
        cases taken
        cases leads
      | failed =>
        have next_eq := Option.some.inj taken
        have ends : ∀ left, l₀.unless left = .acquiring l task → False := by
          intro left other
          cases left <;> cases other
        rw [← next_eq] at leads
        exact (ends _ leads).elim
      | idle | returned _ _ => exact well.elim
      | _ => exact absurd rfl waits
  | succeeded i | failed => cases taken

theorem acquiring_step (tracked : Tracked p env m trace s)
    (taken : ApiSystem.step p env s a = some s') {t : Nat} {l : Loop} {task : Task}
    (stands : s'.phases t = some (.acquiring l task)) :
    (∃ attempt, task = .loopHead attempt) ∨ s.phases t = some (.acquiring l task) ∨
      ∃ input task₀, a = .step t input ∧ s.phases t = some (.acquiring l task₀) ∧
        Follows env input.pool s.manager task₀ task := by
  have others : ∀ t₀ phase₀, s'.phases = Function.update s.phases t₀ (some phase₀) →
      (t = t₀ ∧ phase₀ = .acquiring l task) ∨ s.phases t = some (.acquiring l task) := by
    intro t₀ phase₀ updated
    rw [updated] at stands
    by_cases eq : t = t₀
    · subst eq
      rw [Function.update_self] at stands
      exact .inl ⟨rfl, Option.some.inj stands⟩
    · rw [Function.update_of_ne eq] at stands
      exact .inr stands
  rcases step_cases taken with ⟨t₀, model, rfl, fresh, rfl⟩ |
    ⟨t₀, input, phase₀, next, rfl, found, made, rfl⟩ | ⟨t₀, phase₀, rfl, found, rfl⟩
  · rcases others t₀ _ rfl with ⟨rfl, leads⟩ | before
    · rcases phase_call p s.manager model with ⟨l₀, begins, -, -⟩ | fails
      · rw [begins] at leads
        cases leads
      · rw [fails] at leads
        cases leads
    · exact .inr (.inl before)
  · rcases others t₀ _ rfl with ⟨rfl, leads⟩ | before
    · rcases acquiring_call (tracked.well t phase₀ found) made leads with head |
        ⟨task₀, made, rfl, acquire, stepped, rfl⟩
      · exact .inl head
      · exact .inr (.inr ⟨input, task₀, rfl, found, follows_step acquire stepped⟩)
    · exact .inr (.inl before)
  · rcases others t₀ _ rfl with ⟨rfl, leads⟩ | before
    · cases leads
    · exact .inr (.inl before)

theorem suspects_step (tracked : Tracked p env m trace s)
    (taken : ApiSystem.step p env s a = some s') (t : Nat) (l : Loop) (task : Task) (id : Nat)
    (stands : s'.phases t = some (.acquiring l task)) (suspected : suspect task = some id) :
    FoundRevoked ((s, a) :: trace) t id := by
  have earlier : FoundRevoked trace t id → FoundRevoked ((s, a) :: trace) t id := by
    rintro ⟨step, mem, found⟩
    exact ⟨step, List.mem_cons_of_mem _ mem, found⟩
  rcases acquiring_step tracked taken stands with ⟨attempt, rfl⟩ | before |
    ⟨input, task₀, rfl, found, follows⟩
  · cases suspected
  · exact earlier (tracked.suspects t l task id before suspected)
  · rcases follows.suspects id suspected with before | finds
    · exact earlier (tracked.suspects t l task₀ id found before)
    · exact ⟨_, List.mem_cons_self, input, l, task₀, rfl, found, finds⟩

theorem failures_step (tracked : Tracked p env m trace s)
    (taken : ApiSystem.step p env s a = some s') (t : Nat) (l : Loop) (task : Task) (id : Nat)
    (stands : s'.phases t = some (.acquiring l task)) (fails : failing task = some id) :
    FoundFailed env ((s, a) :: trace) t id ∨ FoundOverlooked env ((s, a) :: trace) t ∨
      id ∉ ids m := by
  rcases acquiring_step tracked taken stands with ⟨attempt, rfl⟩ | before |
    ⟨input, task₀, rfl, found, follows⟩
  · cases fails
  · rcases tracked.failures t l task id before fails with ⟨step, mem, failed⟩ |
      ⟨step, mem, overlooked⟩ | gone
    · exact .inl ⟨step, List.mem_cons_of_mem _ mem, failed⟩
    · exact .inr (.inl ⟨step, List.mem_cons_of_mem _ mem, overlooked⟩)
    · exact .inr (.inr gone)
  · rcases follows.failures id fails with failed | overlooked | gone
    · exact .inl ⟨_, List.mem_cons_self, input, l, task₀, rfl, found, failed⟩
    · exact .inr (.inl ⟨_, List.mem_cons_self, input, l, task₀, rfl, found, overlooked⟩)
    · refine .inr (.inr ?_)
      rw [← tracked.same_ids]
      intro mem
      obtain ⟨e, there, here⟩ := List.mem_map.mp mem
      exact absurd (List.find?_eq_none.mp gone e there) (by simp [here])

theorem Tracked.step (tracked : Tracked p env m trace s) (nodup : (ids m).Nodup)
    (taken : ApiSystem.step p env s a = some s') : Tracked p env m ((s, a) :: trace) s' := by
  have effects := effects_step tracked taken
  have same_ids : ids s'.manager = ids m := (ids_of_effects effects).trans tracked.same_ids
  have cleared : Cleared (eventOf p s a) s'.manager := by
    refine cleared_step ?_ taken
    rw [tracked.same_ids]
    exact nodup
  refine ⟨same_ids, ?_, well_step tracked taken, suspects_step tracked taken,
    failures_step tracked taken⟩
  intro e' mem
  obtain ⟨e, before, effect⟩ := exists_of_forall₂ effects mem
  exact (tracked.counted e before).step effect (cleared.success e' mem) (cleared.token e' mem)

theorem tracked_run (nodup : (ids m).Nodup) (run : ApiRun p env m trace s) :
    Tracked p env m trace s := by
  induction run with
  | nil =>
    refine ⟨rfl, fun e mem => ?_, fun _ _ none => (by cases none),
      fun _ _ _ _ none => (by cases none), fun _ _ _ _ none => (by cases none)⟩
    exact ⟨.inl (le_countBefore (·.failureCount) mem), le_countBefore (·.refreshFailureCount) mem⟩
  | cons run taken ih => exact ih.step nodup taken

theorem requests_cons (t : Nat) : requests t ((s, a) :: trace) =
    requests t trace + if sends t s a then 1 else 0 := by
  unfold requests
  rw [List.countP_cons]

private theorem bounded_of_update {t₀ : Nat} {phase₀ phase₁ : Phase} (bounded : Bounded p trace s)
    (other : ∀ t model, a ≠ .begin t model) (found : s.phases t₀ = some phase₀)
    (updated : s'.phases = Function.update s.phases t₀ (some phase₁))
    (apart : ∀ t, t ≠ t₀ → sends t s a = false)
    (here : ∀ limit, Progress limit (requests t₀ trace) phase₀ →
      Progress limit (requests t₀ ((s, a) :: trace)) phase₁) :
    Bounded p ((s, a) :: trace) s' := by
  obtain ⟨idle, begun⟩ := bounded
  have still : ∀ t, t ≠ t₀ → requests t ((s, a) :: trace) = requests t trace := by
    intro t ne
    rw [requests_cons, apart t ne]
    rfl
  constructor
  · intro t none
    have ne : t ≠ t₀ := by
      rintro rfl
      rw [updated, Function.update_self] at none
      cases none
    rw [updated, Function.update_of_ne ne] at none
    rw [still t ne]
    refine ⟨(idle t none).1, fun step mem model => ?_⟩
    rcases List.mem_cons.mp mem with rfl | mem
    · exact other t model
    · exact (idle t none).2 step mem model
  · intro t step mem model is_begin
    have mem : step ∈ trace := by
      rcases List.mem_cons.mp mem with rfl | mem
      · exact absurd is_begin (other t model)
      · exact mem
    obtain ⟨phase, stands, progress⟩ := begun t step mem model is_begin
    by_cases eq : t = t₀
    · subst eq
      rw [found] at stands
      cases stands
      refine ⟨phase₁, ?_, here _ progress⟩
      rw [updated, Function.update_self]
    · refine ⟨phase, ?_, ?_⟩
      · rw [updated, Function.update_of_ne eq]
        exact stands
      · rw [still t eq]
        exact progress

theorem Bounded.step (bounded : Bounded p trace s) (taken : ApiSystem.step p env s a = some s') :
    Bounded p ((s, a) :: trace) s' := by
  rcases step_cases taken with ⟨t₀, model, rfl, fresh, rfl⟩ |
    ⟨t₀, input, phase₀, next, rfl, found, made, rfl⟩ | ⟨t₀, phase₀, rfl, found, rfl⟩
  · obtain ⟨idle, begun⟩ := bounded
    constructor
    · intro t none
      have ne : t ≠ t₀ := by
        rintro rfl
        dsimp only at none
        rw [Function.update_self] at none
        cases none
      dsimp only at none
      rw [Function.update_of_ne ne] at none
      refine ⟨(idle t none).1, fun step mem model' => ?_⟩
      rcases List.mem_cons.mp mem with rfl | mem
      · intro same
        cases same
        exact ne rfl
      · exact (idle t none).2 step mem model'
    · intro t step mem model' is_begin
      rcases List.mem_cons.mp mem with rfl | mem
      · cases is_begin
        refine ⟨_, Function.update_self .., ?_⟩
        have unsent : requests t₀ ((s, .begin t₀ model) :: trace) = 0 := (idle t₀ fresh).1
        rw [unsent]
        rcases phase_call p s.manager model with ⟨l, begins, first, limited⟩ | fails
        · rw [begins]
          exact ⟨limited, Nat.zero_le _, by rw [first]; exact Nat.zero_le _⟩
        · rw [fails]
          exact Nat.zero_le _
      · obtain ⟨phase, stands, progress⟩ := begun t step mem model' is_begin
        have ne : t ≠ t₀ := by
          rintro rfl
          rw [fresh] at stands
          cases stands
        refine ⟨phase, ?_, progress⟩
        dsimp only
        rw [Function.update_of_ne ne]
        exact stands
  · refine bounded_of_update bounded (fun _ _ other => by cases other) found rfl ?_ ?_
    · intro t ne
      rw [sends, beq_false_of_ne (Ne.symm ne)]
      rfl
    · intro limit progress
      have sent : sends t₀ s (.step t₀ input) = isRequest phase₀ := by
        rw [sends, found, beq_self_eq_true]
        rfl
      rw [requests_cons, sent]
      exact progress_call progress made
  · refine bounded_of_update bounded (fun _ _ other => by cases other) found rfl (fun _ _ => rfl) ?_
    exact fun limit progress => progress.sent_le

theorem bounded_run (run : ApiRun p env m trace s) : Bounded p trace s := by
  induction run with
  | nil => exact ⟨fun t _ => ⟨rfl, fun step mem => by cases mem⟩, fun t step mem => by cases mem⟩
  | cons run taken ih => exact ih.step taken

/-- The answers that say nothing against a credential. -/
def Harmless (p : Provider) : Answer → Prop
  | .unsendable | .networkError => True
  | .response status body _ =>
      status = 400 ∨ status = 408 ∨ status = 429 ∨ 500 ≤ status ∧ status < 600 ∨
        isClientValidationError p.fromStr body = true ∧ ¬ (200 ≤ status ∧ status < 300) ∧
          status ≠ 401 ∧ status ≠ 403 ∧
          ¬ (status = 402 ∧ isMonthlyRequestLimit p.fromStr body = true)

theorem verdict_of_harmless {refreshed : Bool} {status : Nat} {body : String}
    {wait : Option Nat} (harmless : Harmless p (.response status body wait)) :
    p.verdict refreshed status body = .fatal ∨ p.verdict refreshed status body = .transient ∨
      p.verdict refreshed status body = .accountThrottled ∨
      p.verdict refreshed status body = .rateLimited := by
  obtain ⟨not_success, not_refused, not_quota⟩ : ¬ (200 ≤ status ∧ status < 300) ∧
      ¬ (status = 401 ∨ status = 403) ∧
      ¬ (status = 402 ∧ isMonthlyRequestLimit p.fromStr body = true) := by
    rcases harmless with eq | eq | eq | range | ⟨-, not_success, not_401, not_403, not_quota⟩
    · omega
    · omega
    · omega
    · omega
    · exact ⟨not_success, not_or.mpr ⟨not_401, not_403⟩, not_quota⟩
  unfold Provider.verdict
  rw [if_neg not_success, if_neg not_quota, if_neg not_refused]
  by_cases bad_request : status = 400
  · exact .inl (if_pos bad_request)
  · rw [if_neg bad_request]
    split_ifs
    · exact .inr (.inr (.inl rfl))
    · exact .inl rfl
    · exact .inl rfl
    · exact .inr (.inr (.inr rfl))
    · exact .inr (.inl rfl)
    · exact .inl rfl
    · exact .inr (.inl rfl)

theorem marks_of_change {s : System} {op : Operation} {e e' : CredentialEntry}
    (announces : Announces s (.operation op) none) (change : Change env s (.operation op) e e') :
    marksOf e' = marksOf e := by
  cases change with
  | same | cooled | edited | written | uncounted => rfl
  | succeeded stamp cause | failed stamp cause | shutDown stamp cause
  | quotaExhausted stamp cause =>
    cases cause
    cases announces
  | refreshFailed stamp cause | refreshShutDown stamp cause | tokenInvalid stamp cause =>
    rcases cause with ⟨stamp', eq⟩ | ⟨t, input, attempt, eq, -⟩
    · cases eq
      cases announces
    · cases eq
  | switchedOff cause | switchedOn cause | quotaMarked cause | reset cause =>
    cases cause
    cases announces
  | retokened token access expires cause =>
    cases cause
    cases announces
  | forced t input snapshot new cause => cases cause
  | ensured t input attempt c token cause => cases cause
  | healed t input attempt cause => cases cause
  | reloaded t input attempt found cause => cases cause

theorem marks_of_harmless (env : Env) {input : CallInput} {m : MultiTokenManager} {l : Loop}
    (id : Nat) (harmless : Harmless p input.answer) :
    List.Forall₂ (fun e e' => marksOf e' = marksOf e) m.entries
      (p.answered input m l id).1.entries := by
  have kept : List.Forall₂ (fun e e' => marksOf e' = marksOf e) m.entries m.entries :=
    List.forall₂_same.mpr fun _ _ => rfl
  have cooled : ∀ op, Announces ⟨m, none, fun _ => .idle⟩ (.operation op) none →
      (∀ id, op ≠ .deleteEntry id) →
      List.Forall₂ (fun e e' => marksOf e' = marksOf e) m.entries (op.apply env m).entries := by
    intro op announces stays
    have changes : List.Forall₂ (Change env ⟨m, none, fun _ => .idle⟩ (.operation op)) m.entries
        (op.apply env m).entries := forall₂_apply rfl stays
    exact changes.imp fun _ _ change => marks_of_change announces change
  unfold Provider.answered
  cases answer : input.answer with
  | unsendable | networkError => exact kept
  | response status body wait =>
    rw [answer] at harmless
    dsimp only
    rcases verdict_of_harmless harmless with verdict | verdict | verdict | verdict
    · rw [verdict]
      exact kept
    · rw [verdict]
      exact kept
    · rw [verdict]
      exact cooled (.reportAccountThrottled id input.pool.now input.later p.cooldown)
        (.throttled _ _ _ _) (fun _ other => by cases other)
    · rw [verdict]
      cases l.policy.credentialSwitchOn429 with
      | true =>
        exact cooled (.reportRateLimited id input.pool.now input.later _) (.limited _ _ _ _)
          (fun _ other => by cases other)
      | false => exact kept

theorem found_of_event (tracked : Tracked p env m trace s) {id : Nat}
    (event : eventOf p s a = some (.tokenRevoked id)) :
    ∃ t input, a = .step t input ∧ FoundRevoked trace t id := by
  cases a with
  | begin t model | drop t => cases event
  | step t input =>
    obtain ⟨phase, stands, happens⟩ := Option.bind_eq_some_iff.mp event
    have well := tracked.well t phase stands
    refine ⟨t, input, rfl, ?_⟩
    cases phase with
    | acquiring l task =>
      cases task with
      | reportingInvalid attempt i =>
        cases happens
        exact tracked.suspects t l _ id stands rfl
      | returned model context =>
        rw [phaseEvent] at happens
        split at happens
        · cases happens
        · cases happens
      | forceRefreshing i snapshot => exact well.elim
      | _ => cases happens
    | requesting l context =>
      rw [phaseEvent] at happens
      split at happens
      · split at happens
        all_goals cases happens
      · cases happens
    | refreshing l i task =>
      cases task with
      | forceRefreshing i' snapshot =>
        have happens : taskEvent input.pool (.forceRefreshing i' snapshot) =
            some (.tokenRevoked id) := happens
        rw [taskEvent] at happens
        split at happens
        · cases happens
        · cases happens
      | reportingInvalid attempt i' => exact well.elim
      | _ => cases happens
    | head l | succeeded i | failed => cases happens

/-- The call whose step reports a token that could not be had could not refresh it, or overlooked
that it was missing. -/
theorem failed_of_event (tracked : Tracked p env m trace s) {id : Nat}
    (event : eventOf p s a = some (.tokenFailed id)) (present : id ∈ ids m) :
    ∃ t input, a = .step t input ∧
      (FoundFailed env trace t id ∨ FoundOverlooked env trace t) := by
  cases a with
  | begin t model | drop t => cases event
  | step t input =>
    obtain ⟨phase, stands, happens⟩ := Option.bind_eq_some_iff.mp event
    have well := tracked.well t phase stands
    refine ⟨t, input, rfl, ?_⟩
    cases phase with
    | acquiring l task =>
      cases task with
      | reportingFailure attempt i =>
        cases happens
        rcases tracked.failures t l _ id stands rfl with failed | overlooked | gone
        · exact .inl failed
        · exact .inr overlooked
        · exact absurd present gone
      | returned model context =>
        rw [phaseEvent] at happens
        split at happens
        · cases happens
        · cases happens
      | forceRefreshing i snapshot => exact well.elim
      | _ => cases happens
    | requesting l context =>
      rw [phaseEvent] at happens
      split at happens
      · split at happens
        all_goals cases happens
      · cases happens
    | refreshing l i task =>
      cases task with
      | forceRefreshing i' snapshot =>
        have happens : taskEvent input.pool (.forceRefreshing i' snapshot) =
            some (.tokenFailed id) := happens
        rw [taskEvent] at happens
        split at happens
        · cases happens
        · cases happens
      | reportingFailure attempt i' => exact well.elim
      | _ => cases happens
    | head l | succeeded i | failed => cases happens

theorem ownFailures_run (nodup : (ids m).Nodup) (run : ApiRun p env m trace s) {id : Nat}
    (present : id ∈ ids m) (tokened : Guarded (Tokened env) trace.tail) :
    OwnFailures p env trace id := by
  rintro later earlier s₁ a₁ rfl event
  obtain ⟨before, -⟩ := run.before
  obtain ⟨t, input, is_step, failed | overlooked⟩ :=
    failed_of_event (tracked_run nodup before) event present
  · exact ⟨t, input, is_step, failed⟩
  · obtain ⟨step, mem, input', l, task, is_step', stands, overlooks⟩ := overlooked
    have past : step ∈ (later ++ (s₁, a₁) :: earlier).tail := by
      cases later with
      | nil => exact mem
      | cons p later => exact List.mem_append_right _ (List.mem_cons_of_mem _ mem)
    exact absurd overlooks (tokened step past t input' l task is_step' stands)

theorem Effect.warranted (tracked : Tracked p env m trace s) {e : CredentialEntry}
    (mem : e ∈ s.manager.entries) (own : OwnFailures p env ((s, a) :: trace) e.id)
    (effect : Effect (eventOf p s a) (marksOf e) k')
    (enabled : e.disabled = false) (disabled : k'.disabled = true) :
    Warranted p env m trace s a e.id := by
  have counted := tracked.counted e mem
  have same : ∀ {d : Bool}, d = e.disabled → d ≠ true := by
    rintro d rfl
    rw [enabled]
    exact Bool.false_ne_true
  cases effect with
  | kept | succeeded | refused | tokenFailed | tokenHad => exact absurd disabled (same rfl)
  | healed | reloaded => cases disabled
  | shutDown cause reached =>
    unfold Warranted
    rw [cause]
    refine ⟨rfl, ?_⟩
    have count : (marksOf e).failureCount ≤ refusals p m trace (marksOf e).id := by
      rcases counted.refused with counted | quota
      · exact counted
      · exact absurd quota.1 (same rfl)
    have raised : refusals p m ((s, a) :: trace) e.id = refusals p m trace e.id + 1 :=
      refusals_of_refused cause
    rw [raised]
    exact reached.trans (Nat.succ_le_succ count)
  | exhausted cause =>
    unfold Warranted
    rw [cause]
    rfl
  | tokenShutDown cause reached =>
    unfold Warranted
    rw [cause]
    refine ⟨rfl, ?_, own⟩
    have raised : tokenFailures p m ((s, a) :: trace) e.id = tokenFailures p m trace e.id + 1 :=
      tokenFailures_of_failed cause
    rw [raised]
    exact reached.trans (Nat.succ_le_succ counted.tokens)
  | revoked cause =>
    have found := found_of_event tracked cause
    unfold Warranted
    rw [cause]
    exact ⟨rfl, found⟩

def stepsOf (t steps : Nat) (answer : Answer) : List ApiAction :=
  List.replicate steps (.step t { answer := answer })

def oneCall (steps : Nat) (answer : Answer) : List ApiAction :=
  .begin 0 none :: stepsOf 0 steps answer

def tokenedCheck (env : Env) (p : ApiSystem × ApiAction) : Bool :=
  match p.2 with
  | .step t input =>
    match p.1.phases t with
    | some (.acquiring _ (.token (.acquire _) _ c)) =>
      c.isApiKeyCredential || needsRefresh env input.pool.utcNow c || c.accessToken.isSome
    | some (.acquiring _ (.rereading (.acquire _) id)) => (p.1.manager.find id).all fun e =>
      needsRefresh env input.pool.utcNow e.credentials || e.credentials.accessToken.isSome
    | _ => true
  | _ => true

theorem tokened_of_check (checked : tokenedCheck env (s, a) = true) : Tokened env s a := by
  rintro t input l task rfl stands overlooked
  unfold tokenedCheck at checked
  dsimp only at checked
  rw [stands] at checked
  rcases overlooked with ⟨attempt, id, c, rfl, key, fresh, none⟩ |
    ⟨attempt, id, e, rfl, found, fresh, none⟩
  · dsimp only at checked
    rw [key, fresh, none] at checked
    cases checked
  · dsimp only at checked
    rw [found, Option.all_some, fresh, none] at checked
    cases checked

def keyAndToken : MultiTokenManager where
  config := ⟨"us-east-1", none, none⟩
  entries :=
    [{ id := 1, credentials := { kiroApiKey := some "ksk_1" } },
      { id := 2, credentials := { RefreshInterleaving.oauth with priority := 1 } }]
  currentId := 1
  loadBalancingMode := "priority"
  enterpriseProfileFetchAttempted := []

/-- Two calls get server errors and refusals with the key. The first goes over to the token, which
cannot be refreshed. -/
def twoCalls : List ApiAction :=
  [.begin 0 none, .begin 1 none] ++ stepsOf 1 6 (.response 500 "" none) ++
    stepsOf 0 6 (.response 403 "" none) ++ stepsOf 1 6 (.response 403 "" none) ++
    stepsOf 0 27 (.response 403 "" none)

theorem twoCalls_run :
    ((follow (ApiSystem.step polite plainEnv) [] (ApiSystem.initial keyAndToken) twoCalls).any
      fun reached => reached.1.all (tokenedCheck plainEnv) &&
        reached.2.manager.entries.map (·.disabled) == [true, false] &&
          (ApiSystem.step polite plainEnv reached.2 (.step 0 {})).any fun next =>
            next.manager.entries.map (·.disabled) == [true, true]) = true := by
  decide +kernel

def refreshes : Option Phase → Bool
  | some (.acquiring _ (.refreshing _ _ _)) => true
  | _ => false

def keyless : MultiTokenManager where
  config := ⟨"us-east-1", none, none⟩
  entries := [{ id := 1, credentials := { authMethod := some "api_key" } }]
  currentId := 1
  loadBalancingMode := "priority"
  enterpriseProfileFetchAttempted := []

theorem keyless_run :
    ((follow (ApiSystem.step polite plainEnv) [] (ApiSystem.initial keyless)
      (oneCall 20 .networkError)).any fun reached =>
        reached.1.all (fun step => !refreshes (step.1.phases 0)) &&
          reached.2.manager.entries.map (·.disabledReason) == [some .tooManyRefreshFailures]) =
      true := by
  decide +kernel

theorem throttled_run :
    ((follow (ApiSystem.step polite plainEnv) [] (ApiSystem.initial twoKeys)
      (oneCall 5 .networkError)).any fun reached =>
        (reached.2.phases 0).any isRequest &&
          (ApiSystem.step polite plainEnv reached.2
            (.step 0 { answer := .response 429 suspicious none })).any fun next =>
              next.manager.entries.map (·.totalFailureCount) !=
                reached.2.manager.entries.map (·.totalFailureCount)) = true := by
  decide +kernel

theorem invalid_run :
    ((follow (ApiSystem.step polite plainEnv) [] (ApiSystem.initial twoKeys)
      (oneCall 5 .networkError)).any fun reached =>
        (reached.2.phases 0).any isRequest &&
          (ApiSystem.step polite plainEnv reached.2
            (.step 0 { answer := .response 403 "Expected toolResult blocks" none })).any fun next =>
              next.manager.entries.map (·.failureCount) !=
                reached.2.manager.entries.map (·.failureCount)) = true := by
  decide +kernel

theorem requesting_of_any {phase : Option Phase} (sends : phase.any isRequest = true) :
    ∃ l context, phase = some (.requesting l context) := by
  obtain ⟨place, rfl, is_request⟩ := (Option.any_eq_true _ _).mp sends
  cases place with
  | requesting l context => exact ⟨l, context, rfl⟩
  | _ => cases is_request

end Runs

end KiroRs.Pool.ApiCalls
