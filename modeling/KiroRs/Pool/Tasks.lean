/- Path: KiroRs/Pool/Tasks
   source: src/kiro/token_manager.rs
   digest: The asynchronous operations of the credential pool as tasks that interleave, one lock
   section or one awaited answer a step. -/

import KiroRs.Lib.Traces
import KiroRs.Pool.Manager

set_option autoImplicit false
set_option relaxedAutoImplicit false

namespace KiroRs.Pool.Tasks

open KiroRs.Lib.Text
open KiroRs.Lib.Traces
open KiroRs.Pool.Credentials
open KiroRs.Pool.Manager

/-- What `acquire_context` hands out. -/
structure CallContext where
  id : Nat
  credentials : KiroCredentials
  token : String
  deriving DecidableEq, Repr

/-- The local state of the loop of `acquire_context`. -/
structure Attempt where
  model : Option String
  attemptCount : Nat
  total : Nat
  deriving DecidableEq, Repr

inductive Purpose where
  | acquire (attempt : Attempt)
  | usage
  | models
  | preference
  deriving DecidableEq, Repr

structure UsageAnswer where
  subscriptionTitle : Option String
  email : Option String
  deriving DecidableEq, Repr

/-- Where a task stands. Each constructor waits for one lock section or one answer and carries
the local variables that are still needed. -/
inductive Task where
  | idle
  -- `acquire_context`
  | loopHead (attempt : Attempt)
  | stickyCheck (attempt : Attempt)
  | selecting (attempt : Attempt)
  | healing (attempt : Attempt)
  | reselecting (attempt : Attempt)
  | switching (attempt : Attempt) (id : Nat) (credentials : KiroCredentials)
  -- the token of an entry
  | reading (purpose : Purpose) (id : Nat)
  | token (purpose : Purpose) (id : Nat) (credentials : KiroCredentials)
  | lockWait (purpose : Purpose) (id : Nat)
  | rereading (purpose : Purpose) (id : Nat)
  | refreshing (purpose : Purpose) (id : Nat) (snapshot : KiroCredentials)
  -- the rest of `try_ensure_token`
  | profile (attempt : Attempt) (id : Nat) (credentials : KiroCredentials) (token : String)
  | fetchingProfile (attempt : Attempt) (id : Nat) (credentials : KiroCredentials)
      (token : String)
  | fallbackProfile (attempt : Attempt) (id : Nat) (credentials : KiroCredentials)
      (token : String)
  | settingProfile (attempt : Attempt) (id : Nat) (credentials : KiroCredentials)
      (token : String) (arn : String)
  | finishing (attempt : Attempt) (id : Nat) (credentials : KiroCredentials) (token : String)
  -- a failed token
  | recovering (attempt : Attempt) (id : Nat)
  | reloading (attempt : Attempt) (id : Nat) (found : KiroCredentials)
  | reportingInvalid (attempt : Attempt) (id : Nat)
  | reportingFailure (attempt : Attempt) (id : Nat)
  -- the queries, once they have their token
  | querying (purpose : Purpose) (id : Nat)
  | awaitingUsage (id : Nat)
  | fillingTitle (id : Nat) (answer : UsageAnswer)
  | fillingEmail (id : Nat) (answer : UsageAnswer)
  -- `force_refresh_token_for`
  | forceReading (id : Nat)
  | forceWaiting (id : Nat) (snapshot : KiroCredentials)
  | forceRefreshing (id : Nat) (snapshot : KiroCredentials)
  -- `add_credential`
  | adding (new : KiroCredentials)
  | addRefreshing (new : KiroCredentials)
  | addChoosing (new validated : KiroCredentials)
  | addPushing (id : Nat) (credentials : KiroCredentials)
  | returned (model : Option String) (context : CallContext)
  | done
  | failed
  deriving DecidableEq, Repr

/-- The clocks at a step and the answers of whatever the step waits for: the token endpoint, the
profile and usage queries, and the parsed credentials file. -/
structure Input where
  now : Nat := 0
  utcNow : Int := 0
  stamp : String := ""
  refresh : Except RefreshError RefreshResponse := .error (.other "")
  profile : Except String (Option String) := .ok none
  usage : Except String UsageAnswer := .error ""
  file : Option (List KiroCredentials) := none

/-- All there is: the manager, the holder of the refresh lock and every task. -/
structure System where
  manager : MultiTokenManager
  refreshLock : Option Nat
  tasks : Nat → Task

def tokenFailed (purpose : Purpose) (id : Nat) (error : RefreshError) : Task :=
  match purpose with
  | .acquire attempt =>
      match error with
      | .invalid _ => .recovering attempt id
      | .other _ => .reportingFailure attempt id
  | _ => .failed

def withAccessToken (purpose : Purpose) (id : Nat) (credentials : KiroCredentials) : Task :=
  match credentials.accessToken with
  | none => tokenFailed purpose id (.other "没有可用的 accessToken")
  | some token =>
      match purpose with
      | .acquire attempt => .profile attempt id credentials token
      | _ => .querying purpose id

def tokenTask (env : Env) (utcNow : Int) (purpose : Purpose) (id : Nat)
    (credentials : KiroCredentials) : Task :=
  if credentials.isApiKeyCredential then
    match credentials.kiroApiKey with
    | none => tokenFailed purpose id (.other "API Key 凭据缺少 kiroApiKey")
    | some key =>
        match purpose with
        | .acquire attempt => .returned attempt.model ⟨id, credentials, key⟩
        | _ => .querying purpose id
  else if needsRefresh env utcNow credentials then .lockWait purpose id
  else withAccessToken purpose id credentials

/-- The file entry `try_reload_credential_from_file` adopts, if its refresh token is news. -/
def reloadMatch (m : MultiTokenManager) (id : Nat) (file : Option (List KiroCredentials)) :
    Option KiroCredentials :=
  match file, m.find id with
  | some creds, some e =>
      let same (c : KiroCredentials) : Bool :=
        (c.id.isSome && c.id == e.credentials.id) ||
          (c.email.isSome && c.email == e.credentials.email)
      let matched := (creds.find? same).or
        (if creds.length = 1 ∧ m.entries.length = 1 then creds.head? else none)
      matched.filter fun c =>
        c.refreshToken.isSome && c.refreshToken != e.credentials.refreshToken
  | _, _ => none

/-- Steps 1 and 2 of `add_credential`. -/
def addCheck (env : Env) (m : MultiTokenManager) (new : KiroCredentials) : Except String Unit :=
  if new.isApiKeyCredential then
    match new.kiroApiKey with
    | none => .error "API Key 凭据缺少 kiroApiKey"
    | some key =>
        if key.isEmpty then .error "kiroApiKey 为空"
        else if m.entries.any fun e =>
            e.credentials.kiroApiKey.any (env.sha256Hex · == env.sha256Hex key) then
          .error "凭据已存在（kiroApiKey 重复）"
        else .ok ()
  else
    match validateRefreshToken new with
    | .error message => .error message
    | .ok _ =>
        if m.entries.any fun e => e.credentials.refreshToken.any fun token =>
            new.refreshToken.any (env.sha256Hex token == env.sha256Hex ·) then
          .error "凭据已存在（refreshToken 重复）"
        else .ok ()

/-- Steps 4 and 5 of `add_credential`: the validated credentials with the id and the metadata the
user gave. -/
def addFinish (config : Config) (id : Nat) (new validated : KiroCredentials) : KiroCredentials :=
  let filled := { validated with
    id := some id
    priority := new.priority
    authMethod := new.authMethod.map fun m =>
      if eqIgnoreAsciiCase m "builder-id" || eqIgnoreAsciiCase m "iam" then "idc" else m
    profileArn := new.profileArn.or validated.profileArn
    provider := new.provider }.fillDefaultProfileArnWithRegion (some config.effectiveApiRegion)
  { filled with
    clientId := new.clientId
    clientSecret := new.clientSecret
    region := new.region
    authRegion := new.authRegion
    apiRegion := new.apiRegion
    machineId := new.machineId
    email := new.email
    proxyUrl := new.proxyUrl
    proxyUsername := new.proxyUsername
    proxyPassword := new.proxyPassword
    kiroApiKey := new.kiroApiKey }

def maxId (entries : List CredentialEntry) : Nat := (entries.map (·.id)).foldl max 0

/-- The id of a new entry. The sum wraps like a `u64`. -/
def nextId (entries : List CredentialEntry) : Nat := (maxId entries + 1) % 2 ^ 64

structure Next where
  manager : MultiTokenManager
  refreshLock : Option Nat
  task : Task

def writeBack (m : MultiTokenManager) (id : Nat) (new : KiroCredentials) : MultiTokenManager :=
  m.updateCredentials id fun _ => new

/-- One step of task `t`; `none` while it is blocked or finished. -/
def stepTask (env : Env) (t : Nat) (input : Input) (m : MultiTokenManager) (lock : Option Nat) :
    Task → Option Next
  | .loopHead a =>
      if a.attemptCount ≥ max (a.total * maxFailuresPerCredential) 1 then some ⟨m, lock, .failed⟩
      else if m.loadBalancingMode = "balanced" then some ⟨m, lock, .selecting a⟩
      else some ⟨m, lock, .stickyCheck a⟩
  | .stickyCheck a =>
      match m.currentHit input.now with
      | some e => some ⟨m, lock, .token (.acquire a) e.id e.credentials⟩
      | none => some ⟨m, lock, .selecting a⟩
  | .selecting a =>
      match m.selectNextCredential env input.now a.model with
      | some e => some ⟨m, lock, .switching a e.id e.credentials⟩
      | none => some ⟨m, lock, .healing a⟩
  | .healing a =>
      if m.canHeal then some ⟨m.heal, lock, .reselecting a⟩ else some ⟨m, lock, .failed⟩
  | .reselecting a =>
      match m.selectNextCredential env input.now a.model with
      | some e => some ⟨m, lock, .switching a e.id e.credentials⟩
      | none => some ⟨m, lock, .failed⟩
  | .switching a id credentials =>
      some ⟨{ m with currentId := id }, lock, .token (.acquire a) id credentials⟩
  | .reading purpose id =>
      match m.find id with
      | some e => some ⟨m, lock, .token purpose id e.credentials⟩
      | none => some ⟨m, lock, .failed⟩
  | .token purpose id credentials =>
      some ⟨m, lock, tokenTask env input.utcNow purpose id credentials⟩
  | .lockWait purpose id =>
      if lock = none then some ⟨m, some t, .rereading purpose id⟩ else none
  | .rereading purpose id =>
      match m.find id with
      | none => some ⟨m, none, tokenFailed purpose id (.other (missing id))⟩
      | some e =>
          if needsRefresh env input.utcNow e.credentials then
            some ⟨m, lock, .refreshing purpose id e.credentials⟩
          else some ⟨m, none, withAccessToken purpose id e.credentials⟩
  | .refreshing purpose id snapshot =>
      match refreshToken snapshot input.refresh with
      | .error e => some ⟨m, none, tokenFailed purpose id e⟩
      | .ok new =>
          match purpose with
          | .acquire _ =>
              if isTokenExpired env input.utcNow new then
                some ⟨m, none, tokenFailed purpose id (.other "刷新后的 Token 仍然无效或已过期")⟩
              else some ⟨writeBack m id new, none, withAccessToken purpose id new⟩
          | _ => some ⟨writeBack m id new, none, withAccessToken purpose id new⟩
  | .profile a id credentials token =>
      if !credentials.shouldFetchEnterpriseProfileArn then
        some ⟨m, lock, .finishing a id credentials token⟩
      else if id ∈ m.enterpriseProfileFetchAttempted then
        some ⟨m, lock, .fallbackProfile a id credentials token⟩
      else
        some ⟨{ m with
          enterpriseProfileFetchAttempted := id :: m.enterpriseProfileFetchAttempted }, lock,
          .fetchingProfile a id credentials token⟩
  | .fetchingProfile a id credentials token =>
      match input.profile with
      | .ok (some arn) => some ⟨m, lock, .settingProfile a id credentials token arn⟩
      | .ok none => some ⟨m, lock, .fallbackProfile a id credentials token⟩
      | .error _ =>
          some ⟨{ m with
            enterpriseProfileFetchAttempted := m.enterpriseProfileFetchAttempted.erase id }, lock,
            .finishing a id credentials token⟩
  | .fallbackProfile a id credentials token =>
      let fallback := enterpriseFallbackProfileArn (some (credentials.effectiveApiRegion m.config))
      let needsUpdate := match credentials.profileArn with
        | none => true
        | some arn =>
            isPlaceholderProfileArn arn || (isEnterpriseFallbackProfileArn arn && arn != fallback)
      if needsUpdate then
        some ⟨m, lock, .settingProfile a id { credentials with profileArn := some fallback } token
          fallback⟩
      else some ⟨m, lock, .finishing a id credentials token⟩
  | .settingProfile a id credentials token arn =>
      match m.find id with
      | none => some ⟨m, lock, .finishing a id credentials token⟩
      | some e =>
          some ⟨m.updateCredentials id fun c => { c with profileArn := some arn }, lock,
            .finishing a id { e.credentials with profileArn := some arn } token⟩
  | .finishing a id credentials token =>
      some ⟨m.update id fun e => { e with refreshFailureCount := 0 }, lock,
        .returned a.model ⟨id, credentials, token⟩⟩
  | .recovering a id =>
      match reloadMatch m id input.file with
      | some found => some ⟨m, lock, .reloading a id found⟩
      | none => some ⟨m, lock, .reportingInvalid a id⟩
  | .reloading a id found =>
      some ⟨m.update id fun e =>
        { e with
          credentials := { e.credentials with
            refreshToken := found.refreshToken
            accessToken := found.accessToken
            expiresAt := found.expiresAt }
          disabled := false
          disabledReason := none
          refreshFailureCount := 0
          failureCount := 0 }, lock, .loopHead a⟩
  | .reportingInvalid a id =>
      let (m, left) := m.reportRefreshTokenInvalid id input.stamp
      some ⟨m, lock, if left then .loopHead { a with attemptCount := a.attemptCount + 1 }
        else .failed⟩
  | .reportingFailure a id =>
      let (m, left) := m.reportRefreshFailure id input.stamp
      some ⟨m, lock, if left then .loopHead { a with attemptCount := a.attemptCount + 1 }
        else .failed⟩
  | .querying purpose id =>
      match m.find id with
      | none => some ⟨m, lock, .failed⟩
      | some _ =>
          match purpose with
          | .usage => some ⟨m, lock, .awaitingUsage id⟩
          | _ => some ⟨m, lock, .done⟩
  | .awaitingUsage id =>
      match input.usage with
      | .error _ => some ⟨m, lock, .failed⟩
      | .ok answer => some ⟨m, lock, .fillingTitle id answer⟩
  | .fillingTitle id answer =>
      match answer.subscriptionTitle with
      | none => some ⟨m, lock, .fillingEmail id answer⟩
      | some title =>
          some ⟨m.updateCredentials id fun c => { c with subscriptionTitle := some title }, lock,
            .fillingEmail id answer⟩
  | .fillingEmail id answer =>
      match answer.email with
      | none => some ⟨m, lock, .done⟩
      | some email =>
          some ⟨m.updateCredentials id fun c =>
            if c.email.all fun old => trim old == "" then { c with email := some email } else c,
            lock, .done⟩
  | .forceReading id =>
      match m.find id with
      | none => some ⟨m, lock, .failed⟩
      | some e => some ⟨m, lock, .forceWaiting id e.credentials⟩
  | .forceWaiting id snapshot =>
      if lock = none then some ⟨m, some t, .forceRefreshing id snapshot⟩ else none
  | .forceRefreshing id snapshot =>
      match refreshToken snapshot input.refresh with
      | .error _ => some ⟨m, none, .failed⟩
      | .ok new =>
          some ⟨(writeBack m id new).update id fun e => { e with refreshFailureCount := 0 }, none,
            .done⟩
  | .adding new =>
      match addCheck env m new with
      | .error _ => some ⟨m, lock, .failed⟩
      | .ok _ =>
          if new.isApiKeyCredential then some ⟨m, lock, .addChoosing new new⟩
          else some ⟨m, lock, .addRefreshing new⟩
  | .addRefreshing new =>
      match refreshToken new input.refresh with
      | .error _ => some ⟨m, lock, .failed⟩
      | .ok validated => some ⟨m, lock, .addChoosing new validated⟩
  | .addChoosing new validated =>
      let id := nextId m.entries
      some ⟨m, lock, .addPushing id (addFinish m.config id new validated)⟩
  | .addPushing id credentials =>
      some ⟨{ m with entries := m.entries ++ [{ id := id, credentials := credentials }] }, lock,
        .done⟩
  | .idle | .returned _ _ | .done | .failed => none

/-- The asynchronous operations a caller can start. -/
inductive Call where
  | acquireContext (model : Option String)
  | getUsageLimitsFor (id : Nat)
  | getAvailableModelsFor (id : Nat)
  | setUserPreferenceFor (id : Nat) (overageStatus : String)
  | forceRefreshTokenFor (id : Nat)
  | addCredential (new : KiroCredentials)
  deriving DecidableEq, Repr

def Call.task (m : MultiTokenManager) : Call → Task
  | .acquireContext model => .loopHead ⟨model, 0, m.entries.length⟩
  | .getUsageLimitsFor id => .reading .usage id
  | .getAvailableModelsFor id => .reading .models id
  | .setUserPreferenceFor id overageStatus =>
      if overageStatus ≠ "ENABLED" ∧ overageStatus ≠ "DISABLED" then .failed
      else .reading .preference id
  | .forceRefreshTokenFor id => .forceReading id
  | .addCredential new => .adding new

inductive Operation where
  | reportSuccess (id : Nat) (stamp : String)
  | reportFailure (id : Nat) (stamp : String)
  | reportQuotaExhausted (id : Nat) (stamp : String)
  | reportRefreshFailure (id : Nat) (stamp : String)
  | reportRefreshTokenInvalid (id : Nat) (stamp : String)
  | switchToNext
  | reportAccountThrottled (id now later cooldown : Nat)
  | reportRateLimited (id now later cooldown : Nat)
  | setDisabled (id : Nat) (disabled : Bool)
  | clearThrottle (id : Nat)
  | disableQuotaExceeded (id : Nat)
  | setPriority (id priority : Nat)
  | selectHighestPriority
  | setEndpoint (id : Nat) (endpoint : Option String)
  | resetAndEnable (id : Nat)
  | resetSuccessCount (id : Option Nat)
  | updateCredential (id : Nat) (email proxyUrl proxyUsername proxyPassword :
      Option (Option String))
  | updateAuthMetadata (id : Nat) (metadata : KiroCredentials)
  | deleteEntry (id : Nat)
  | resetCurrentIfEmpty
  | updateRefreshToken (id : Nat) (newRefreshToken : String)
      (newAccessToken newExpiresAt : Option String)
  | setLoadBalancingMode (mode : String)
  | updateGlobalConfigRuntime (config : Config)

def settle (m : MultiTokenManager) (result : Except String MultiTokenManager) :
    MultiTokenManager :=
  match result with
  | .ok m' => m'
  | .error _ => m

def Operation.apply (env : Env) (m : MultiTokenManager) : Operation → MultiTokenManager
  | .reportSuccess id stamp => m.reportSuccess id stamp
  | .reportFailure id stamp => (m.reportFailure id stamp).1
  | .reportQuotaExhausted id stamp => (m.reportQuotaExhausted id stamp).1
  | .reportRefreshFailure id stamp => (m.reportRefreshFailure id stamp).1
  | .reportRefreshTokenInvalid id stamp => (m.reportRefreshTokenInvalid id stamp).1
  | .switchToNext => m.switchToNext.1
  | .reportAccountThrottled id now later cooldown =>
      (m.reportAccountThrottled id now later cooldown).1
  | .reportRateLimited id now later cooldown => (m.reportRateLimited id now later cooldown).1
  | .setDisabled id disabled => settle m (m.setDisabled id disabled)
  | .clearThrottle id => settle m (m.clearThrottle id)
  | .disableQuotaExceeded id => settle m (m.disableQuotaExceeded id)
  | .setPriority id priority => settle m (m.setPriorityOf id priority)
  | .selectHighestPriority => m.selectHighestPriority
  | .setEndpoint id endpoint => settle m (m.setEndpoint id endpoint)
  | .resetAndEnable id => settle m (m.resetAndEnable id)
  | .resetSuccessCount id => settle m (m.resetSuccessCount id)
  | .updateCredential id email proxyUrl proxyUsername proxyPassword =>
      settle m (m.updateCredential id email proxyUrl proxyUsername proxyPassword)
  | .updateAuthMetadata id metadata => settle m (m.updateAuthMetadata id metadata)
  | .deleteEntry id => settle m ((m.deleteEntry id).map (·.1))
  | .resetCurrentIfEmpty => m.resetCurrentIfEmpty
  | .updateRefreshToken id token access expires =>
      settle m (m.updateRefreshToken env id token access expires)
  | .setLoadBalancingMode mode => settle m (m.setLoadBalancingMode mode)
  | .updateGlobalConfigRuntime config => { m with config := config }

/-- One step of the system: a call starts, a task makes a step or is dropped by its caller, or a
synchronous operation runs. -/
inductive Action where
  | start (t : Nat) (call : Call)
  | task (t : Nat) (input : Input)
  | drop (t : Nat)
  | operation (op : Operation)

def Task.waits : Task → Bool
  | .idle | .returned _ _ | .done | .failed => false
  | _ => true

def release (t : Nat) (lock : Option Nat) : Option Nat := if lock = some t then none else lock

def System.step (env : Env) (s : System) : Action → Option System
  | .start t call =>
      if s.tasks t = .idle then
        some { s with tasks := Function.update s.tasks t (call.task s.manager) }
      else none
  | .task t input =>
      (stepTask env t input s.manager s.refreshLock (s.tasks t)).map fun next =>
        ⟨next.manager, next.refreshLock, Function.update s.tasks t next.task⟩
  | .drop t =>
      if (s.tasks t).waits then
        some ⟨s.manager, release t s.refreshLock, Function.update s.tasks t .failed⟩
      else none
  | .operation op => some { s with manager := op.apply env s.manager }

def System.initial (m : MultiTokenManager) : System := ⟨m, none, fun _ => .idle⟩

/-- The runs of the pool: every interleaving of any number of calls and operations. -/
abbrev PoolRun (env : Env) (m : MultiTokenManager) (trace : List (System × Action)) (s : System) :
    Prop := Run (System.step env) (System.initial m) trace s

def Action.actor : Action → Option Nat
  | .start t _ | .task t _ | .drop t => some t
  | .operation _ => none

theorem tasks_of_not_actor {env : Env} {s s' : System} {a : Action}
    (step : s.step env a = some s') {t : Nat} (other : a.actor ≠ some t) :
    s'.tasks t = s.tasks t := by
  cases a with
  | start t' call =>
      have ne : t ≠ t' := fun same => other (by rw [same]; rfl)
      simp only [System.step] at step
      split_ifs at step
      cases step
      exact Function.update_of_ne ne ..
  | task t' input =>
      have ne : t ≠ t' := fun same => other (by rw [same]; rfl)
      obtain ⟨next, -, rfl⟩ := Option.map_eq_some_iff.mp step
      exact Function.update_of_ne ne ..
  | drop t' =>
      have ne : t ≠ t' := fun same => other (by rw [same]; rfl)
      simp only [System.step] at step
      split_ifs at step
      cases step
      exact Function.update_of_ne ne ..
  | operation op =>
      cases step
      rfl

def actsWithin (ts : List Nat) (trace : List (System × Action)) : Bool :=
  trace.all fun p => p.2.actor.all ts.contains

theorem idle_of_actsWithin {env : Env} {m : MultiTokenManager} {trace : List (System × Action)}
    {s : System} {ts : List Nat} (run : PoolRun env m trace s) (within : actsWithin ts trace = true)
    {t : Nat} (other : t ∉ ts) : s.tasks t = .idle ∧ ∀ p ∈ trace, p.1.tasks t = .idle := by
  induction run with
  | nil => exact ⟨rfl, fun p mem => by cases mem⟩
  | @cons trace s s' a run taken ih =>
    obtain ⟨own_within, later⟩ := Bool.and_eq_true_iff.mp within
    have here : a.actor.all ts.contains = true := own_within
    obtain ⟨idle, before⟩ := ih later
    have foreign : a.actor ≠ some t := by
      intro own
      rw [own, Option.all_some] at here
      exact other (List.contains_iff_mem.mp here)
    refine ⟨(tasks_of_not_actor taken foreign).trans idle, fun p mem => ?_⟩
    rcases List.mem_cons.mp mem with rfl | earlier
    · exact idle
    · exact before p earlier

end KiroRs.Pool.Tasks
