/- Path: KiroRs/Pool/Failover
   source: src/kiro/provider.rs, src/kiro/endpoint/mod.rs, src/model/config.rs
   digest: `call_api_with_retry`: the attempts of one API call over the credential pool, and what
   each answer of the upstream leads to. -/

import KiroRs.Converter.Json
import KiroRs.Pool.Tasks

set_option autoImplicit false
set_option relaxedAutoImplicit false

namespace KiroRs.Pool.Failover

open KiroRs.Lib.Text
open KiroRs.Converter.Json (Value)
open KiroRs.Pool.Credentials
open KiroRs.Pool.Manager
open KiroRs.Pool.Tasks

def quotaExhaustedReasons : List String :=
  ["MONTHLY_REQUEST_COUNT", "OVERAGE_REQUEST_LIMIT_EXCEEDED"]

def clientValidationReasons : List String := ["TOOL_USE_RESULT_MISMATCH", "TOOL_SCHEMA_INVALID"]

def clientValidationMessageMarkers : List String := ["Expected toolResult blocks"]

/-- The `reason` of the answer and the one under its `error`. -/
def reasons (value : Value) : List String :=
  [(value.get "reason").bind Value.asStr,
    ((value.get "error").bind (·.get "reason")).bind Value.asStr].filterMap id

/-- One of the reasons occurs in the body, and in a JSON body it is the reason. -/
def reasonHit (fromStr : String → Option Value) (known : List String) (body : String) : Bool :=
  known.any (contains body) &&
    match fromStr body with
    | some value => (reasons value).any known.contains
    | none => true

def isMonthlyRequestLimit (fromStr : String → Option Value) (body : String) : Bool :=
  reasonHit fromStr quotaExhaustedReasons body

def isBearerTokenInvalid (body : String) : Bool :=
  contains body "The bearer token included in the request is invalid"

def isAccountThrottled (body : String) : Bool :=
  contains body "suspicious activity" && contains body "temporary limits"

def isGatewayTimeout (body : String) : Bool :=
  let lower := body.toLower
  contains body "524" && (contains lower "status code" || contains lower "gateway timeout" ||
    contains lower "server-side issue")

def isClientValidationError (fromStr : String → Option Value) (body : String) : Bool :=
  reasonHit fromStr clientValidationReasons body ||
    clientValidationMessageMarkers.any (contains body)

inductive RetryMode where
  | turbo | fast | balanced | steady | polite | custom
  deriving DecidableEq, Repr

structure RetryPolicy where
  rateLimitCooldownMs : Nat
  maxRequestRetries : Nat
  baseBackoffMs : Nat
  maxBackoffMs : Nat
  credentialSwitchOn429 : Bool
  respectRetryAfter : Bool
  deriving DecidableEq, Repr

namespace RetryPolicy

def preset : RetryMode → RetryPolicy
  | .turbo => ⟨1000, 12, 100, 1000, true, false⟩
  | .balanced => ⟨10000, 9, 500, 5000, true, false⟩
  | .steady => ⟨30000, 6, 1000, 10000, true, true⟩
  | .polite => ⟨60000, 4, 2000, 30000, false, true⟩
  | .fast | .custom => ⟨3000, 9, 200, 2000, true, false⟩

def validate (policy : RetryPolicy) : Except String Unit :=
  if ¬ (500 ≤ policy.rateLimitCooldownMs ∧ policy.rateLimitCooldownMs ≤ 120000) then
    .error "rateLimitCooldownMs 必须在 500..=120000 之间"
  else if ¬ (1 ≤ policy.maxRequestRetries ∧ policy.maxRequestRetries ≤ 30) then
    .error "maxRequestRetries 必须在 1..=30 之间"
  else if ¬ (50 ≤ policy.baseBackoffMs ∧ policy.baseBackoffMs ≤ 30000) then
    .error "baseBackoffMs 必须在 50..=30000 之间"
  else if policy.maxBackoffMs < policy.baseBackoffMs ∨ policy.maxBackoffMs > 120000 then
    .error "maxBackoffMs 必须在 baseBackoffMs..=120000 之间"
  else .ok ()

def effective (mode : RetryMode) (custom : Option RetryPolicy) : Except String RetryPolicy := do
  let policy ← if mode = .custom then
      match custom with
      | some policy => .ok policy
      | none => .error "custom 模式需要 retryPolicy"
    else .ok (preset mode)
  policy.validate
  return policy

theorem effective_preset {mode : RetryMode} (built_in : mode ≠ .custom)
    (custom : Option RetryPolicy) : effective mode custom = .ok (preset mode) := by
  cases mode with
  | custom => exact absurd rfl built_in
  | turbo | fast | balanced | steady | polite => rfl

end RetryPolicy

/-- What the provider is configured with. -/
structure Provider where
  fromStr : String → Option Value
  endpoints : List String
  defaultEndpoint : String
  retryMode : RetryMode
  retryPolicy : Option RetryPolicy
  accountThrottleFailover : Bool
  accountThrottleCooldownSecs : Nat

def Provider.endpointFor (p : Provider) (credentials : KiroCredentials) : Except String String :=
  let name := credentials.endpoint.getD p.defaultEndpoint
  if name ∈ p.endpoints then .ok name else .error ("未知端点: " ++ name)

def maxTotalRetries : Nat := 30

def maxRetries (totalCredentials : Nat) (policy : RetryPolicy) : Nat :=
  min (max totalCredentials 1 * policy.maxRequestRetries) maxTotalRetries

/-- What comes of a request: no client or no request could be built, the connection failed, or the
upstream answered. The delay of a `Retry-After` header is in milliseconds. -/
inductive Answer where
  | unsendable
  | networkError
  | response (status : Nat) (body : String) (retryAfter : Option Nat)
  deriving DecidableEq, Repr

/-- What `call_api_with_retry` does about an answer. -/
inductive Verdict where
  | success | quotaExhausted | fatal | forceRefresh | failure | accountThrottled | rateLimited
  | transient
  deriving DecidableEq, Repr

/-- The tests on an answer, in their order. -/
def Provider.verdict (p : Provider) (refreshed : Bool) (status : Nat) (body : String) : Verdict :=
  if 200 ≤ status ∧ status < 300 then .success
  else if status = 402 ∧ isMonthlyRequestLimit p.fromStr body then .quotaExhausted
  else if status = 400 then .fatal
  else if status = 401 ∨ status = 403 then
    if isBearerTokenInvalid body && !refreshed then .forceRefresh else .failure
  else if status = 429 ∧ p.accountThrottleFailover ∧ isAccountThrottled body then
    .accountThrottled
  else if isClientValidationError p.fromStr body then .fatal
  else if status = 524 ∨ isGatewayTimeout body then .fatal
  else if status = 429 then .rateLimited
  else if status = 408 ∨ 500 ≤ status ∧ status < 600 then .transient
  else if 400 ≤ status ∧ status < 500 then .fatal
  else .transient

/-- The local state of the loop of `call_api_with_retry`. -/
structure Loop where
  policy : RetryPolicy
  model : Option String
  maxRetries : Nat
  attempt : Nat
  forceRefreshed : List Nat
  deriving DecidableEq, Repr

/-- Where the call stands. -/
inductive Phase where
  | head (loop : Loop)
  | acquiring (loop : Loop) (task : Task)
  | requesting (loop : Loop) (context : CallContext)
  | refreshing (loop : Loop) (id : Nat) (task : Task)
  | succeeded (id : Nat)
  | failed
  deriving DecidableEq, Repr

structure CallState where
  manager : MultiTokenManager
  refreshLock : Option Nat
  phase : Phase

/-- The clocks and answers of a step: those of the pool, the answer of the upstream, and the clock
when the remaining entries are counted. -/
structure CallInput where
  pool : Input := {}
  answer : Answer := .unsendable
  later : Nat := 0

def Loop.next (l : Loop) : Phase := .head { l with attempt := l.attempt + 1 }

/-- After a report: the call ends when no credential is left. -/
def Loop.unless (l : Loop) (left : Bool) : Phase := if left then l.next else .failed

def Provider.cooldown (p : Provider) : Nat := max p.accountThrottleCooldownSecs 1 * 1000

def Provider.answered (p : Provider) (input : CallInput) (m : MultiTokenManager) (l : Loop)
    (id : Nat) : MultiTokenManager × Phase :=
  match input.answer with
  | .unsendable => (m, .failed)
  | .networkError => (m, l.next)
  | .response status body retryAfter =>
      match p.verdict (id ∈ l.forceRefreshed) status body with
      | .success => (m.reportSuccess id input.pool.stamp, .succeeded id)
      | .quotaExhausted =>
          let (m, left) := m.reportQuotaExhausted id input.pool.stamp
          (m, l.unless left)
      | .fatal => (m, .failed)
      | .forceRefresh =>
          (m, .refreshing { l with forceRefreshed := id :: l.forceRefreshed } id (.forceReading id))
      | .failure =>
          let (m, left) := m.reportFailure id input.pool.stamp
          (m, l.unless left)
      | .accountThrottled =>
          let (m, remaining) := m.reportAccountThrottled id input.pool.now input.later p.cooldown
          (m, l.unless (remaining != 0))
      | .rateLimited =>
          let wait := if l.policy.respectRetryAfter then retryAfter else none
          let cooldown := wait.getD l.policy.rateLimitCooldownMs
          let m := if l.policy.credentialSwitchOn429 then
              (m.reportRateLimited id input.pool.now input.later cooldown).1
            else m
          -- the last attempt falls through to the branch for client errors
          (m, if l.attempt + 1 < l.maxRetries then l.next else .failed)
      | .transient => (m, l.next)

/-- One step of the call, in task `t`; `none` once it has ended. -/
def stepCall (p : Provider) (env : Env) (t : Nat) (s : CallState) (input : CallInput) :
    Option CallState :=
  match s.phase with
  | .head l =>
      if l.attempt < l.maxRetries then
        some { s with phase := .acquiring l ((Call.acquireContext l.model).task s.manager) }
      else some { s with phase := .failed }
  | .acquiring l (.returned _ context) =>
      match p.endpointFor context.credentials with
      | .ok _ => some { s with phase := .requesting l context }
      | .error _ =>
          some ⟨(s.manager.reportFailure context.id input.pool.stamp).1, s.refreshLock, l.next⟩
  | .acquiring l .failed => some { s with phase := l.next }
  | .acquiring l task =>
      (stepTask env t input.pool s.manager s.refreshLock task).map fun next =>
        ⟨next.manager, next.refreshLock, .acquiring l next.task⟩
  | .requesting l context =>
      let (m, phase) := p.answered input s.manager l context.id
      some ⟨m, s.refreshLock, phase⟩
  | .refreshing l _ .done => some { s with phase := l.next }
  | .refreshing l id .failed =>
      let (m, left) := s.manager.reportFailure id input.pool.stamp
      some ⟨m, s.refreshLock, l.unless left⟩
  | .refreshing l id task =>
      (stepTask env t input.pool s.manager s.refreshLock task).map fun next =>
        ⟨next.manager, next.refreshLock, .refreshing l id next.task⟩
  | .succeeded _ | .failed => none

section

variable {p : Provider} {env : Env} {t id : Nat} {s : CallState} {input : CallInput} {l : Loop}

theorem stepCall_acquiring {task : Task} (phase : s.phase = .acquiring l task)
    (waits : task.waits = true) : stepCall p env t s input =
      (stepTask env t input.pool s.manager s.refreshLock task).map fun next =>
        ⟨next.manager, next.refreshLock, .acquiring l next.task⟩ := by
  unfold stepCall
  rw [phase]
  cases task with
  | returned _ _ | failed => cases waits
  | _ => rfl

theorem stepCall_refreshing {task : Task} (phase : s.phase = .refreshing l id task)
    (waits : task.waits = true) : stepCall p env t s input =
      (stepTask env t input.pool s.manager s.refreshLock task).map fun next =>
        ⟨next.manager, next.refreshLock, .refreshing l id next.task⟩ := by
  unfold stepCall
  rw [phase]
  cases task with
  | done | failed => cases waits
  | _ => rfl

end

/-- The beginning of a call on the pool; the model is the one that the request names. -/
def Provider.call (p : Provider) (m : MultiTokenManager) (model : Option String) : CallState :=
  match RetryPolicy.effective p.retryMode p.retryPolicy with
  | .error _ => ⟨m, none, .failed⟩
  | .ok policy => ⟨m, none, .head ⟨policy, model, maxRetries m.entries.length policy, 0, []⟩⟩

end KiroRs.Pool.Failover
