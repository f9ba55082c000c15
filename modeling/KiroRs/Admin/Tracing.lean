/- Path: KiroRs/Admin/Tracing
   source: src/kiro/provider.rs, src/anthropic/handlers.rs, src/anthropic/websearch_loop.rs
   digest: What the attempts of a request report to its tracer, over all rounds of a web search, and
   when the trace that is read back has all of them. -/

import KiroRs.Admin.TraceDb
import KiroRs.Lib.Traces
import KiroRs.Pool.Failover

set_option autoImplicit false
set_option relaxedAutoImplicit false

namespace KiroRs.Admin.Tracing

open KiroRs.Lib.Tables
open KiroRs.Lib.Traces
open KiroRs.Admin.TraceDb
open KiroRs.Pool.Credentials
open KiroRs.Pool.Manager
open KiroRs.Pool.Tasks
open KiroRs.Pool.Failover

/-- What a report takes besides the state of the call: the time of the attempt, and the text of an
error that is no answer of the upstream. -/
structure Detail where
  durationMs : Nat
  error : String

def attemptOf (d : Detail) (l : Loop) (credentialId : Nat) (endpoint : String)
    (httpStatus : Option Nat) (outcome : Outcome) (errorBody : Option String) : TraceAttempt where
  attempt := l.attempt
  credentialId := credentialId
  endpoint := endpoint
  httpStatus := httpStatus
  outcome := outcome
  errorSnippet := errorBody.bind truncateSnippet
  durationMs := d.durationMs

def timedOut (p : Provider) (status : Nat) (body : String) : Bool :=
  status != 400 && !isClientValidationError p.fromStr body &&
    (status == 524 || isGatewayTimeout body)

/-- What is reported of an answer. On the last attempt an ordinary 429 goes on to the branch of the
other client errors, which reports it again. -/
def outcomes (p : Provider) (l : Loop) (id status : Nat) (body : String) : List Outcome :=
  match p.verdict (id ∈ l.forceRefreshed) status body with
  | .success => [.success]
  | .quotaExhausted => [.quotaExhausted]
  | .fatal => [if timedOut p status body then .transient else .badRequest]
  | .forceRefresh | .failure => [.authFailed]
  | .accountThrottled => [.accountThrottled]
  | .rateLimited => if l.attempt + 1 < l.maxRetries then [.transient] else [.transient, .badRequest]
  | .transient => [if status = 408 ∨ 500 ≤ status ∧ status < 600 then .transient else .unknown]

/-- The reports of a step of `call_api_with_retry`. -/
def emitted (p : Provider) (input : CallInput) (d : Detail) : Phase → List TraceAttempt
  | .acquiring l .failed => [attemptOf d l 0 "" none .unknown (some d.error)]
  | .acquiring l (.returned _ context) =>
    match p.endpointFor context.credentials with
    | .ok _ => []
    | .error e => [attemptOf d l context.id "" none .unknown (some e)]
  | .requesting l context =>
    let endpoint := context.credentials.endpoint.getD p.defaultEndpoint
    match input.answer with
    | .unsendable => []
    | .networkError => [attemptOf d l context.id endpoint none .networkError (some d.error)]
    | .response status body _ =>
      (outcomes p l context.id status body).map fun outcome =>
        attemptOf d l context.id endpoint (some status) outcome
          (if outcome = .success then none else some body)
  | _ => []

structure Closing where
  finalStatus : FinalStatus
  errorType : Option Outcome
  errorMessage : Option String
  interruptedAfterBytes : Option Nat
  usage : Option (Int × Int × Int × Int)
  durationMs : Nat

/-- What a tracer is made with. `tsEpoch` is the second of `ts`. -/
structure TracerInfo where
  traceId : String
  ts : String
  tsEpoch : Int
  keyId : Nat
  model : String
  isStream : Bool

structure RequestTracer where
  info : TracerInfo
  attempts : List TraceAttempt

/-- The record that `finalize` writes. -/
def RequestTracer.record (tracer : RequestTracer) (closing : Closing) : TraceRecord :=
  let (input, output, creation, read) := closing.usage.getD (0, 0, 0, 0)
  { traceId := tracer.info.traceId
    ts := tracer.info.ts
    keyId := tracer.info.keyId
    model := tracer.info.model
    isStream := tracer.info.isStream
    finalStatus := closing.finalStatus
    finalCredentialId := (tracer.attempts.getLast?.map (·.credentialId)).getD 0
    errorType := closing.errorType
    errorMessage := closing.errorMessage.map redactText
    totalAttempts := tracer.attempts.length
    durationMs := closing.durationMs
    interruptedAfterBytes := closing.interruptedAfterBytes
    inputTokens := input.toNat
    outputTokens := output.toNat
    cacheCreationTokens := creation.toNat
    cacheReadTokens := read.toNat
    attempts := tracer.attempts }

def maxWebSearchRounds : Nat := 5

/-- A request over the pool and the store that it shares with others: its calls so far, the phase of
the last one, its tracer, and whether it is closed. -/
structure TracedRequest where
  manager : MultiTokenManager
  refreshLock : Option Nat
  rounds : Nat
  phase : Option Phase
  tracer : RequestTracer
  closed : Bool
  store : TraceStore

/-- The request makes its next call or a step of it, or is closed. Others use the pool, close their
own requests, and clean and set up the store. -/
inductive TraceAction where
  | round (model : Option String)
  | step (input : CallInput) (d : Detail)
  | close (closing : Closing)
  | elsewhere (manager : MultiTokenManager) (refreshLock : Option Nat)
  | insert (rec : TraceRecord) (tsEpoch : Int)
  | cleanup (now : Int)
  | configure (enabled : Bool) (retentionDays : Nat)

def idle : Option Phase → Bool
  | none | some (.succeeded _) | some .failed => true
  | _ => false

/-- `run_web_search_loop_inner` makes another call when the last one succeeded, any other request
makes one, and a closed request makes none. -/
def TracedRequest.next (p : Provider) (env : Env) (t : Nat) (s : TracedRequest) :
    TraceAction → Option TracedRequest
  | .round model =>
    if s.closed then none
    else
      match s.phase with
      | none | some (.succeeded _) =>
        if s.rounds ≤ maxWebSearchRounds then
          some { s with phase := some (p.call s.manager model).phase, rounds := s.rounds + 1 }
        else none
      | _ => none
  | .step input d =>
    s.phase.bind fun phase =>
      (stepCall p env t ⟨s.manager, s.refreshLock, phase⟩ input).map fun after =>
        { s with
          manager := after.manager
          refreshLock := after.refreshLock
          phase := some after.phase
          tracer := { s.tracer with attempts := s.tracer.attempts ++ emitted p input d phase } }
  | .close closing =>
    if s.closed || !idle s.phase then none
    else
      some { s with
        closed := true
        tracer := { s.tracer with attempts := [] }
        store := s.store.insert (s.tracer.record closing) s.tracer.info.tsEpoch }
  | .elsewhere manager refreshLock =>
    some { s with manager := manager, refreshLock := refreshLock }
  | .insert rec tsEpoch =>
    if rec.traceId = s.tracer.info.traceId then none
    else some { s with store := s.store.insert rec tsEpoch }
  | .cleanup now => some { s with store := s.store.cleanup now }
  | .configure enabled retentionDays =>
    some { s with store := { s.store with
      enabled := enabled
      retentionDays := max retentionDays 1 } }

def TracedRequest.initial (m : MultiTokenManager) (refreshLock : Option Nat) (info : TracerInfo)
    (store : TraceStore) : TracedRequest :=
  ⟨m, refreshLock, 0, none, ⟨info, []⟩, false, store⟩

/-- No trace of the store has the id, which is a new UUID. -/
def Unused (store : TraceStore) (id : String) : Prop :=
  (∀ row ∈ store.traces, row.record.traceId ≠ id) ∧ store.attemptsOf id = []

abbrev TracedRun (p : Provider) (env : Env) (t : Nat) (start : TracedRequest)
    (trace : List (TracedRequest × TraceAction)) (s : TracedRequest) : Prop :=
  Run (TracedRequest.next p env t) start trace s

def reports (p : Provider) (s : TracedRequest) : TraceAction → List TraceAttempt
  | .step input d => (s.phase.map (emitted p input d)).getD []
  | _ => []

def reported (p : Provider) : List (TracedRequest × TraceAction) → List TraceAttempt
  | [] => []
  | (s, a) :: earlier => reported p earlier ++ reports p s a

def sends (s : TracedRequest) : TraceAction → Bool
  | .step input _ =>
    match s.phase with
    | some (.requesting _ _) => input.answer != .unsendable
    | _ => false
  | _ => false

/-- Everything that was sent is reported once, and the trace, as it is read back, has all that was
reported. -/
structure Complete (p : Provider) (trace : List (TracedRequest × TraceAction))
    (s : TracedRequest) : Prop where
  once : ∀ q ∈ trace, sends q.1 q.2 = true → (reports p q.1 q.2).length = 1
  stored : ∀ query, ∀ rec ∈ (s.store.queryInner query).1, rec.traceId = s.tracer.info.traceId →
    rec.attempts = reported p trace ∧ rec.totalAttempts = (reported p trace).length

/-- The trace of the request is in the store. -/
def Stored (s : TracedRequest) : Prop :=
  ∃ query, ∃ rec ∈ (s.store.queryInner query).1, rec.traceId = s.tracer.info.traceId

def endsAttempt (p : Provider) (input : CallInput) : Phase → Bool
  | .acquiring _ .failed => true
  | .acquiring _ (.returned _ context) => !(p.endpointFor context.credentials).isOk
  | .requesting _ _ => input.answer != .unsendable
  | _ => false

def limitedAtLast (p : Provider) (input : CallInput) : Phase → Bool
  | .requesting l context =>
    match input.answer with
    | .response status body _ =>
      decide (p.verdict (context.id ∈ l.forceRefreshed) status body = .rateLimited) &&
        decide (l.maxRetries ≤ l.attempt + 1)
    | _ => false
  | _ => false

/-- An attempt ends in the first call of the request, and not with an ordinary 429 when it is the
last one. -/
def Single (p : Provider) (s : TracedRequest) (a : TraceAction) : Prop :=
  ∀ input d phase, a = .step input d → s.phase = some phase → endsAttempt p input phase = true →
    s.rounds = 1 ∧ limitedAtLast p input phase = false

variable {p : Provider} {env : Env} {t : Nat} {input : CallInput} {d : Detail} {phase : Phase}
  {s s' : TracedRequest} {a : TraceAction} {trace : List (TracedRequest × TraceAction)}

/-- The attempts of the call that have ended, while it goes on. -/
def ended : Phase → Option Nat
  | .head l | .acquiring l _ | .requesting l _ => some l.attempt
  | .refreshing l _ _ => some (l.attempt + 1)
  | .succeeded _ | .failed => none

theorem emitted_of_open (goesOn : endsAttempt p input phase = false) :
    emitted p input d phase = [] := by
  cases phase with
  | head _ | refreshing _ _ _ | succeeded _ | failed => rfl
  | acquiring l task =>
    cases task with
    | failed => cases goesOn
    | returned model context =>
      simp only [endsAttempt] at goesOn
      simp only [emitted]
      cases found : p.endpointFor context.credentials with
      | ok name => rfl
      | error e =>
        rw [found] at goesOn
        cases goesOn
    | _ => rfl
  | requesting l context =>
    simp only [endsAttempt] at goesOn
    simp only [emitted]
    cases answer : input.answer with
    | unsendable => rfl
    | networkError | response _ _ _ =>
      rw [answer] at goesOn
      cases goesOn

theorem length_outcomes {l : Loop} {id status : Nat} {body : String} :
    (outcomes p l id status body).length =
      if p.verdict (id ∈ l.forceRefreshed) status body = .rateLimited ∧
        l.maxRetries ≤ l.attempt + 1 then 2 else 1 := by
  unfold outcomes
  cases p.verdict (id ∈ l.forceRefreshed) status body with
  | rateLimited =>
    dsimp only
    by_cases last : l.attempt + 1 < l.maxRetries
    · rw [if_pos last, if_neg (by omega)]
      rfl
    · rw [if_neg last, if_pos ⟨rfl, by omega⟩]
      rfl
  | _ => simp

theorem emitted_of_ends (ends : endsAttempt p input phase = true) :
    (emitted p input d phase).length = (if limitedAtLast p input phase then 2 else 1) ∧
      ∃ n, ended phase = some n ∧ ∀ a ∈ emitted p input d phase, a.attempt = n := by
  cases phase with
  | head _ | refreshing _ _ _ | succeeded _ | failed => cases ends
  | acquiring l task =>
    cases task with
    | failed =>
      refine ⟨rfl, l.attempt, rfl, fun a mem => ?_⟩
      rw [List.mem_singleton.mp mem]
      rfl
    | returned model context =>
      simp only [endsAttempt] at ends
      simp only [emitted]
      cases found : p.endpointFor context.credentials with
      | ok name =>
        rw [found] at ends
        cases ends
      | error e =>
        refine ⟨rfl, l.attempt, rfl, fun a mem => ?_⟩
        rw [List.mem_singleton.mp mem]
        rfl
    | _ => cases ends
  | requesting l context =>
    obtain ⟨pool, answer, later⟩ := input
    cases answer with
    | unsendable => cases ends
    | networkError =>
      refine ⟨rfl, l.attempt, rfl, fun a mem => ?_⟩
      rw [List.mem_singleton.mp mem]
      rfl
    | response status body retryAfter =>
      refine ⟨?_, l.attempt, rfl, fun a mem => ?_⟩
      · simp only [emitted, limitedAtLast, List.length_map, length_outcomes, Bool.and_eq_true,
          decide_eq_true_eq]
      · obtain ⟨outcome, -, rfl⟩ := List.mem_map.mp mem
        rfl

theorem ends_of_sends {l : Loop} {context : CallContext} (sent : input.answer ≠ .unsendable) :
    endsAttempt p input (.requesting l context) = true := by
  unfold endsAttempt
  simpa using sent

theorem ended_unless {l : Loop} {left : Bool} {n : Nat} (goes : ended (l.unless left) = some n) :
    n = l.attempt + 1 := by
  cases left with
  | false => cases goes
  | true => exact (Option.some.inj goes).symm

theorem ended_answered {m : MultiTokenManager} {l : Loop} {id n : Nat}
    (goes : ended (p.answered input m l id).2 = some n) :
    input.answer ≠ .unsendable ∧ n = l.attempt + 1 := by
  obtain ⟨pool, answer, later⟩ := input
  cases answer with
  | unsendable => cases goes
  | networkError => exact ⟨by simp, (Option.some.inj goes).symm⟩
  | response status body retryAfter =>
    refine ⟨by simp, ?_⟩
    simp only [Provider.answered] at goes
    cases verdict : p.verdict (id ∈ l.forceRefreshed) status body with
    | success | fatal =>
      rw [verdict] at goes
      cases goes
    | forceRefresh | transient =>
      rw [verdict] at goes
      exact (Option.some.inj goes).symm
    | quotaExhausted | failure | accountThrottled =>
      rw [verdict] at goes
      exact ended_unless goes
    | rateLimited =>
      rw [verdict] at goes
      dsimp only at goes
      split_ifs at goes
      · exact (Option.some.inj goes).symm
      · cases goes

/-- The count of the ended attempts goes up with the attempt that ends, as long as the call goes
on. -/
theorem ended_stepCall {m : MultiTokenManager} {lock : Option Nat} {after : CallState} {n : Nat}
    (step : stepCall p env t ⟨m, lock, phase⟩ input = some after)
    (goes : ended after.phase = some n) :
    ∃ k, ended phase = some k ∧ n = k + if endsAttempt p input phase then 1 else 0 := by
  cases phase with
  | succeeded id | failed => cases step
  | head l =>
    simp only [stepCall] at step
    split_ifs at step
    · cases step
      exact ⟨l.attempt, rfl, (Option.some.inj goes).symm⟩
    · cases step
      cases goes
  | acquiring l task =>
    refine ⟨l.attempt, rfl, ?_⟩
    cases task with
    | failed =>
      cases step
      exact (Option.some.inj goes).symm
    | returned model context =>
      have ends : endsAttempt p input (.acquiring l (.returned model context)) =
          !(p.endpointFor context.credentials).isOk := rfl
      simp only [stepCall] at step
      split at step
      · next name found =>
        cases step
        rw [ends, found]
        exact (Option.some.inj goes).symm
      · next e found =>
        cases step
        rw [ends, found]
        exact (Option.some.inj goes).symm
    | _ =>
      simp only [stepCall] at step
      obtain ⟨next, -, rfl⟩ := Option.map_eq_some_iff.mp step
      exact (Option.some.inj goes).symm
  | requesting l context =>
    cases step
    obtain ⟨sent, rfl⟩ := ended_answered goes
    refine ⟨l.attempt, rfl, ?_⟩
    rw [if_pos (ends_of_sends sent)]
  | refreshing l id task =>
    refine ⟨l.attempt + 1, rfl, ?_⟩
    cases task with
    | done =>
      cases step
      exact (Option.some.inj goes).symm
    | failed =>
      cases step
      exact ended_unless goes
    | _ =>
      simp only [stepCall] at step
      obtain ⟨next, -, rfl⟩ := Option.map_eq_some_iff.mp step
      exact (Option.some.inj goes).symm

theorem ends_of_succeeded {m : MultiTokenManager} {lock : Option Nat} {after : CallState}
    {id : Nat} (step : stepCall p env t ⟨m, lock, phase⟩ input = some after)
    (finished : after.phase = .succeeded id) : endsAttempt p input phase = true := by
  cases phase with
  | succeeded id | failed => cases step
  | head l =>
    simp only [stepCall] at step
    split_ifs at step <;> cases step <;> cases finished
  | acquiring l task =>
    cases task with
    | failed =>
      cases step
      cases finished
    | returned model context =>
      simp only [stepCall] at step
      split at step <;> cases step <;> cases finished
    | _ =>
      simp only [stepCall] at step
      obtain ⟨next, -, rfl⟩ := Option.map_eq_some_iff.mp step
      cases finished
  | requesting l context =>
    apply ends_of_sends
    intro unsent
    cases step
    simp only [unsent] at finished
    cases finished
  | refreshing l id task =>
    cases task with
    | done =>
      cases step
      cases finished
    | failed =>
      cases step
      dsimp only [Loop.unless] at finished
      split_ifs at finished
      all_goals cases finished
    | _ =>
      simp only [stepCall] at step
      obtain ⟨next, -, rfl⟩ := Option.map_eq_some_iff.mp step
      cases finished

def numbers (p : Provider) (trace : List (TracedRequest × TraceAction)) : List Nat :=
  (reported p trace).map (·.attempt)

inductive Calls (p : Provider) (env : Env) (t : Nat) (s s' : TracedRequest) : TraceAction → Prop
    where
  | round (model : Option String) (fresh : s.phase = none ∨ ∃ id, s.phase = some (.succeeded id))
      (begins : s'.phase = some (p.call s.manager model).phase) (count : s'.rounds = s.rounds + 1) :
      Calls p env t s s' (.round model)
  | step (input : CallInput) (d : Detail) (phase : Phase) (after : CallState)
      (stands : s.phase = some phase)
      (taken : stepCall p env t ⟨s.manager, s.refreshLock, phase⟩ input = some after)
      (goes : s'.phase = some after.phase) (count : s'.rounds = s.rounds) :
      Calls p env t s s' (.step input d)
  | other {a : TraceAction} (quiet : reports p s a = []) (same : s'.phase = s.phase)
      (count : s'.rounds = s.rounds) : Calls p env t s s' a

theorem calls_of_next (step : s.next p env t a = some s') : Calls p env t s s' a := by
  cases a with
  | round model =>
    simp only [TracedRequest.next] at step
    split at step
    · cases step
    · split at step
      · next stands =>
        split_ifs at step
        cases step
        exact .round model (.inl stands) rfl rfl
      · next id stands =>
        split_ifs at step
        cases step
        exact .round model (.inr ⟨id, stands⟩) rfl rfl
      · cases step
  | step input d =>
    obtain ⟨phase, stands, rest⟩ := Option.bind_eq_some_iff.mp step
    obtain ⟨after, taken, rfl⟩ := Option.map_eq_some_iff.mp rest
    exact .step input d phase after stands taken rfl rfl
  | close closing =>
    simp only [TracedRequest.next] at step
    split_ifs at step
    cases step
    exact .other rfl rfl rfl
  | insert rec tsEpoch =>
    simp only [TracedRequest.next] at step
    split_ifs at step
    cases step
    exact .other rfl rfl rfl
  | elsewhere manager refreshLock | cleanup now | configure enabled retentionDays =>
    cases step
    exact .other rfl rfl rfl

theorem reports_step (stands : s.phase = some phase) :
    reports p s (.step input d) = emitted p input d phase := by
  simp only [reports, stands]
  rfl

/-- One when an attempt of the call has ended, as long as the call has not failed. -/
def startedIn (phase : Phase) : Nat :=
  match phase with
  | .succeeded _ => 1
  | _ => ((ended phase).map (min 1)).getD 0

theorem call_ended {m : MultiTokenManager} {model : Option String} :
    ended (p.call m model).phase = some 0 ∨ (p.call m model).phase = .failed := by
  unfold Provider.call
  split
  · exact .inr rfl
  · exact .inl rfl

theorem startedIn_of_ended {n : Nat} (goes : ended phase = some n) : startedIn phase = min 1 n := by
  cases phase with
  | succeeded id | failed => cases goes
  | head l | acquiring l _ | requesting l _ | refreshing l _ _ =>
    rw [← Option.some.inj goes]
    rfl

theorem startedIn_stepCall {m : MultiTokenManager} {lock : Option Nat} {after : CallState}
    (step : stepCall p env t ⟨m, lock, phase⟩ input = some after) :
    startedIn after.phase ≤
      startedIn phase + ((emitted p input d phase).map (·.attempt)).count 0 := by
  cases ends : endsAttempt p input phase with
  | true =>
    obtain ⟨length, n, goes, all⟩ := emitted_of_ends (d := d) ends
    have most : startedIn after.phase ≤ 1 := by
      cases after.phase with
      | head l | acquiring l _ | requesting l _ | refreshing l _ _ => exact Nat.min_le_left 1 _
      | succeeded id => exact Nat.le_refl 1
      | failed => exact Nat.zero_le 1
    rw [startedIn_of_ended goes]
    rcases Nat.eq_zero_or_pos n with rfl | pos
    · have zeros : ((emitted p input d phase).map (·.attempt)).count 0 =
          (emitted p input d phase).length := by
        rw [List.count_eq_length.mpr, List.length_map]
        intro n mem
        obtain ⟨a, listed, rfl⟩ := List.mem_map.mp mem
        exact (all a listed).symm
      rw [zeros, length]
      split_ifs <;> omega
    · omega
  | false =>
    rw [emitted_of_open ends]
    have unchanged : startedIn after.phase ≤ startedIn phase := by
      cases goes : ended after.phase with
      | some n =>
        obtain ⟨k, before, same⟩ := ended_stepCall step goes
        rw [ends, if_neg Bool.false_ne_true, Nat.add_zero] at same
        rw [startedIn_of_ended goes, startedIn_of_ended before, same]
      | none =>
        cases finished : after.phase with
        | succeeded id =>
          rw [ends_of_succeeded step finished] at ends
          cases ends
        | failed => exact Nat.zero_le _
        | head _ | acquiring _ _ | requesting _ _ | refreshing _ _ _ =>
          rw [finished] at goes
          cases goes
    exact unchanged

/-- The first call is the first round, and every call that has ended an attempt has reported a
number 0. -/
structure Begun (p : Provider) (trace : List (TracedRequest × TraceAction)) (s : TracedRequest) :
    Prop where
  rounds : s.phase = none ↔ s.rounds = 0
  zeros : ∀ phase, s.phase = some phase →
    s.rounds + startedIn phase ≤ (numbers p trace).count 0 + 1

theorem numbers_cons : numbers p ((s, a) :: trace) =
    numbers p trace ++ (reports p s a).map (·.attempt) := by
  unfold numbers
  rw [reported, List.map_append]

theorem Begun.next (begun : Begun p trace s) (step : s.next p env t a = some s') :
    Begun p ((s, a) :: trace) s' := by
  cases calls_of_next step with
  | round model fresh begins count =>
    refine ⟨by simp [begins, count], fun phase stands => ?_⟩
    rw [begins] at stands
    have unstarted : startedIn phase = 0 := by
      rw [← Option.some.inj stands]
      rcases call_ended with goes | finished
      · exact startedIn_of_ended goes
      · rw [finished]
        rfl
    rw [count, unstarted, numbers_cons]
    rcases fresh with none | ⟨id, stands⟩
    · rw [begun.rounds.mp none]
      omega
    · have zeros := begun.zeros _ stands
      have one : startedIn (.succeeded id) = 1 := rfl
      rw [List.count_append]
      omega
  | step input d phase after stands taken goes count =>
    refine ⟨?_, fun phase' stands' => ?_⟩
    · rw [count, ← begun.rounds, goes, stands]
      simp
    · rw [goes] at stands'
      cases stands'
      have zeros := begun.zeros phase stands
      have more := startedIn_stepCall (d := d) taken
      rw [count, numbers_cons, reports_step stands, List.count_append]
      omega
  | other quiet same count =>
    refine ⟨by rw [same, count]; exact begun.rounds, fun phase stands => ?_⟩
    rw [same] at stands
    rw [count, numbers_cons, quiet, List.map_nil, List.append_nil]
    exact begun.zeros phase stands

/-- While only the first call reports, and each attempt once, the numbers are those of its ended
attempts. -/
def InOrder (p : Provider) (trace : List (TracedRequest × TraceAction)) (s : TracedRequest) :
    Prop :=
  ∃ n, numbers p trace = List.range n ∧
    (s.rounds = 0 → n = 0) ∧ ∀ phase k, s.rounds = 1 → s.phase = some phase →
      ended phase = some k → k = n

theorem InOrder.next (inOrder : InOrder p trace s) (begun : Begun p trace s)
    (single : Single p s a) (step : s.next p env t a = some s') :
    InOrder p ((s, a) :: trace) s' := by
  obtain ⟨n, range, none_yet, current⟩ := inOrder
  cases calls_of_next step with
  | round model fresh begins count =>
    refine ⟨n, ?_, by omega, fun phase k first stands goes => ?_⟩
    · rw [numbers_cons, range]
      exact List.append_nil _
    · have zero : k = 0 := by
        rw [begins] at stands
        rw [← Option.some.inj stands] at goes
        rcases call_ended with zero | finished
        · exact Option.some.inj (goes.symm.trans zero)
        · rw [finished] at goes
          cases goes
      rw [zero, none_yet (by omega)]
  | step input d phase after stands taken goes count =>
    have begun_rounds : s.rounds ≠ 0 := by
      intro zero
      rw [begun.rounds.mpr zero] at stands
      cases stands
    cases ends : endsAttempt p input phase with
    | true =>
      obtain ⟨first, once⟩ := single input d phase rfl stands ends
      obtain ⟨length, k, before, all⟩ := emitted_of_ends (d := d) ends
      have here := current phase k first stands before
      rw [once, if_neg Bool.false_ne_true] at length
      obtain ⟨report, only⟩ := List.length_eq_one_iff.mp length
      have number : report.attempt = n := by
        rw [← here]
        apply all
        rw [only]
        exact List.mem_singleton_self report
      refine ⟨n + 1, ?_, by omega, fun phase' k' _ stands' goes' => ?_⟩
      · rw [numbers_cons, reports_step stands, only, range, List.range_succ, List.map_singleton,
          number]
      · rw [goes] at stands'
        cases stands'
        obtain ⟨k'', before', same⟩ := ended_stepCall taken goes'
        rw [ends, if_pos rfl] at same
        rw [before] at before'
        rw [same, ← Option.some.inj before', here]
    | false =>
      refine ⟨n, ?_, by omega, fun phase' k' first stands' goes' => ?_⟩
      · rw [numbers_cons, reports_step stands, emitted_of_open ends, range]
        exact List.append_nil _
      · rw [goes] at stands'
        cases stands'
        obtain ⟨k, before, same⟩ := ended_stepCall taken goes'
        rw [ends, if_neg Bool.false_ne_true, Nat.add_zero] at same
        rw [same]
        exact current phase k (by omega) stands before
  | other quiet same count =>
    refine ⟨n, ?_, by rw [count]; exact none_yet, fun phase k first stands goes => ?_⟩
    · rw [numbers_cons, quiet, range]
      exact List.append_nil _
    · rw [same] at stands
      exact current phase k (by omega) stands goes

/-- An open request has its reports in the tracer and nothing in the store. A closed one makes no
report any more, and where its trace is stored, it is with what was reported. -/
structure Filed (p : Provider) (info : TracerInfo) (trace : List (TracedRequest × TraceAction))
    (s : TracedRequest) : Prop where
  known : s.tracer.info = info
  unfiled : s.closed = false →
    s.tracer.attempts = reported p trace ∧ Unused s.store info.traceId
  finished : s.closed = true → idle s.phase = true
  filed : s.closed = true → ∀ row ∈ s.store.traces, row.key = info.traceId →
    row.tsEpoch = info.tsEpoch ∧ row.record.totalAttempts = (reported p trace).length ∧
      s.store.attemptsOf info.traceId =
        putAll AttemptRow.key [] (rowsOf info.traceId (reported p trace))

theorem Filed.store {info : TracerInfo} (filed : Filed p info trace s) (quiet : reports p s a = [])
    {store : TraceStore} (unused : Unused s.store info.traceId → Unused store info.traceId)
    (rows : ∀ row ∈ store.traces, row.key = info.traceId → row ∈ s.store.traces)
    (attempts : (∀ row ∈ s.store.traces, row.key = info.traceId → row.tsEpoch = info.tsEpoch) →
      ∀ row ∈ store.traces, row.key = info.traceId →
        store.attemptsOf info.traceId = s.store.attemptsOf info.traceId) :
    Filed p info ((s, a) :: trace) { s with store := store } := by
  have same : reported p ((s, a) :: trace) = reported p trace := by
    rw [reported, quiet, List.append_nil]
  refine ⟨filed.known, fun isOpen => ?_, filed.finished, fun closed row mem named => ?_⟩
  · obtain ⟨held, unfiled⟩ := filed.unfiled isOpen
    rw [same]
    exact ⟨held, unused unfiled⟩
  · obtain ⟨epoch, total, stored⟩ := filed.filed closed row (rows row mem named) named
    rw [same]
    refine ⟨epoch, total, ?_⟩
    rw [← stored]
    exact attempts (fun row mem named => (filed.filed closed row mem named).1) row mem named

theorem Filed.next {info : TracerInfo} (filed : Filed p info trace s)
    (step : s.next p env t a = some s') : Filed p info ((s, a) :: trace) s' := by
  cases a with
  | round model =>
    simp only [TracedRequest.next] at step
    split_ifs at step with closed
    · have opened : s.closed = false := by simpa using closed
      have begins : ∃ phase, s' = { s with phase := some phase, rounds := s.rounds + 1 } := by
        split at step
        · cases step
          exact ⟨_, rfl⟩
        · cases step
          exact ⟨_, rfl⟩
        · cases step
      obtain ⟨phase, rfl⟩ := begins
      have same : reported p ((s, .round model) :: trace) = reported p trace :=
        List.append_nil _
      refine ⟨filed.known, fun _ => ?_, fun closed => absurd closed (by simp [opened]),
        fun closed => absurd closed (by simp [opened])⟩
      rw [same]
      exact filed.unfiled opened
    · split at step <;> cases step
  | step input d =>
    obtain ⟨phase, stands, rest⟩ := Option.bind_eq_some_iff.mp step
    obtain ⟨after, taken, rfl⟩ := Option.map_eq_some_iff.mp rest
    have opened : s.closed = false := by
      by_contra closed
      have finished := filed.finished (by simpa using closed)
      rw [stands] at finished
      cases phase with
      | succeeded id | failed => cases taken
      | head _ | acquiring _ _ | requesting _ _ | refreshing _ _ _ => cases finished
    obtain ⟨held, unused⟩ := filed.unfiled opened
    refine ⟨filed.known, fun _ => ⟨?_, unused⟩, fun closed => absurd closed (by simp [opened]),
      fun closed => absurd closed (by simp [opened])⟩
    dsimp only
    rw [held, reported, reports_step stands]
  | close closing =>
    simp only [TracedRequest.next] at step
    split_ifs at step with refused
    cases step
    simp only [Bool.or_eq_true, Bool.not_eq_true', not_or, Bool.not_eq_true,
      Bool.not_eq_false] at refused
    obtain ⟨opened, finished⟩ := refused
    obtain ⟨held, unlisted, none⟩ := filed.unfiled opened
    have same : reported p ((s, .close closing) :: trace) = reported p trace :=
      List.append_nil _
    have named : (s.tracer.record closing).traceId = info.traceId :=
      congrArg TracerInfo.traceId filed.known
    refine ⟨filed.known, fun closed => (by cases closed), fun _ => finished,
      fun _ row mem own => ?_⟩
    rcases mem_traces_insert mem with old | ⟨enabled, rfl⟩
    · exact absurd own (unlisted row old)
    · rw [same]
      refine ⟨congrArg TracerInfo.tsEpoch filed.known, ?_, ?_⟩
      · exact congrArg List.length held
      · rw [← named] at none ⊢
        rw [← held]
        exact attemptsOf_insert_own enabled none
  | elsewhere manager refreshLock =>
    cases step
    have same : reported p ((s, .elsewhere manager refreshLock) :: trace) = reported p trace :=
      List.append_nil _
    refine ⟨filed.known, ?_, filed.finished, ?_⟩
    · rw [same]
      exact filed.unfiled
    · rw [same]
      exact filed.filed
  | insert rec tsEpoch =>
    simp only [TracedRequest.next] at step
    split_ifs at step with own
    cases step
    rw [filed.known] at own
    have rows : ∀ row ∈ (s.store.insert rec tsEpoch).traces, row.key = info.traceId →
        row ∈ s.store.traces := by
      intro row mem named
      rcases mem_traces_insert mem with old | ⟨-, rfl⟩
      · exact old
      · exact absurd named own
    refine filed.store rfl (fun unused => ⟨fun row mem named => ?_, ?_⟩) rows
      fun _ row mem named => attemptsOf_insert_other own
    · exact unused.1 row (rows row mem named) named
    · rw [attemptsOf_insert_other own]
      exact unused.2
  | cleanup now =>
    cases step
    refine filed.store rfl (fun unused => ⟨?_, attemptsOf_cleanup_nil unused.2⟩)
      (fun row mem _ => mem_traces_cleanup mem) fun epochs row mem named =>
        attemptsOf_cleanup epochs mem named
    exact fun row mem => unused.1 row (mem_traces_cleanup mem)
  | configure enabled retentionDays =>
    cases step
    exact filed.store rfl (fun unused => unused) (fun row mem _ => mem) fun _ _ _ _ => rfl

section

variable {m : MultiTokenManager} {lock : Option Nat} {info : TracerInfo} {store : TraceStore}

theorem filed_of_run (unused : Unused store info.traceId)
    (run : TracedRun p env t (.initial m lock info store) trace s) : Filed p info trace s := by
  induction run with
  | nil =>
    exact ⟨rfl, fun _ => ⟨rfl, unused⟩, fun closed => (by cases closed),
      fun closed => (by cases closed)⟩
  | cons run step ih => exact ih.next step

theorem begun_of_run (run : TracedRun p env t (.initial m lock info store) trace s) :
    Begun p trace s := by
  induction run with
  | nil => exact ⟨iff_of_true rfl rfl, fun phase none => (by cases none)⟩
  | cons run step ih => exact ih.next step

theorem inOrder_of_run (run : TracedRun p env t (.initial m lock info store) trace s)
    (single : Guarded (Single p) trace) : InOrder p trace s := by
  induction run with
  | nil => exact ⟨0, rfl, fun _ => rfl, fun phase k first => (by cases first)⟩
  | cons run step ih => exact (ih single.tail).next (begun_of_run run) single.head step

theorem before_of_mem (run : TracedRun p env t (.initial m lock info store) trace s)
    (mem : (s', a) ∈ trace) : ∃ before, Begun p before s' ∧
      numbers p ((s', a) :: before) <+: numbers p trace := by
  induction run with
  | nil => cases mem
  | cons run step ih =>
    rcases List.mem_cons.mp mem with eq | earlier
    · cases eq
      exact ⟨_, begun_of_run run, List.prefix_rfl⟩
    · obtain ⟨before, begun, reports⟩ := ih earlier
      refine ⟨before, begun, reports.trans ?_⟩
      rw [numbers_cons]
      exact List.prefix_append _ _

theorem stored_of_filed (filed : Filed p info trace s) {q : TraceQuery} {rec : TraceRecord}
    (mem : rec ∈ (s.store.queryInner q).1) (named : rec.traceId = info.traceId) :
    rec.totalAttempts = (reported p trace).length ∧
      rec.attempts = s.store.readAttempts info.traceId ∧
      s.store.attemptsOf info.traceId =
        putAll AttemptRow.key [] (rowsOf info.traceId (reported p trace)) := by
  obtain ⟨row, listed, same, total, attempts⟩ := mem_traces_of_query mem
  have own : row.key = info.traceId := same.trans named
  cases closed : s.closed with
  | false => exact absurd own ((filed.unfiled closed).2.1 row listed)
  | true =>
    obtain ⟨-, count, rows⟩ := filed.filed closed row listed own
    rw [named] at attempts
    exact ⟨total.symm.trans count, attempts, rows⟩

theorem complete_of_single (unused : Unused store info.traceId)
    (run : TracedRun p env t (.initial m lock info store) trace s)
    (single : Guarded (Single p) trace) : Complete p trace s := by
  have filed := filed_of_run unused run
  obtain ⟨n, range, -⟩ := inOrder_of_run run single
  refine ⟨?_, ?_⟩
  · rintro ⟨s₀, a⟩ mem sent
    cases a with
    | step input d =>
      unfold sends at sent
      dsimp only at sent
      split at sent
      · next l context stands =>
        have ends : endsAttempt p input (.requesting l context) = true := sent
        obtain ⟨-, once⟩ := single (s₀, .step input d) mem input d _ rfl stands ends
        rw [reports_step stands, (emitted_of_ends ends).1, once]
        rfl
      · cases sent
    | _ => cases sent
  · intro q rec listed named
    rw [filed.known] at named
    obtain ⟨total, attempts, rows⟩ := stored_of_filed filed listed named
    exact ⟨attempts.trans (readAttempts_of_range rows range), total⟩

theorem single_of_complete (unused : Unused store info.traceId)
    (run : TracedRun p env t (.initial m lock info store) trace s) (stored : Stored s)
    (complete : Complete p trace s) : Guarded (Single p) trace := by
  have filed := filed_of_run unused run
  have distinct : (numbers p trace).Nodup := by
    obtain ⟨q, rec, listed, named⟩ := stored
    obtain ⟨all, -⟩ := complete.stored q rec listed named
    rw [filed.known] at named
    obtain ⟨-, attempts, rows⟩ := stored_of_filed filed listed named
    exact nodup_of_readAttempts rows (attempts.symm.trans all)
  rintro ⟨s₀, a⟩ mem input d phase rfl stands ends
  have stands : s₀.phase = some phase := stands
  obtain ⟨length, n, before_n, all⟩ := emitted_of_ends (d := d) ends
  refine ⟨?_, ?_⟩
  · show s₀.rounds = 1
    -- a later call reports a second number 0
    obtain ⟨before, begun, reports⟩ := before_of_mem run mem
    have zeros := begun.zeros phase stands
    have begins : s₀.rounds ≠ 0 := by
      intro zero
      rw [begun.rounds.mpr zero] at stands
      cases stands
    have twice : (numbers p ((s₀, .step input d) :: before)).count 0 ≤ 1 :=
      List.nodup_iff_count_le_one.mp (reports.sublist.nodup distinct) 0
    rw [numbers_cons, reports_step stands, List.count_append] at twice
    rw [startedIn_of_ended before_n] at zeros
    rcases Nat.eq_zero_or_pos n with rfl | pos
    · have some_zero : 0 < ((emitted p input d phase).map (·.attempt)).count 0 := by
        apply List.count_pos_iff.mpr
        have some_report : 0 < (emitted p input d phase).length := by
          rw [length]
          split_ifs <;> omega
        obtain ⟨report, reported⟩ := List.exists_mem_of_length_pos some_report
        exact List.mem_map.mpr ⟨report, reported, all report reported⟩
      omega
    · omega
  · cases limited : limitedAtLast p input phase with
    | false => rfl
    | true =>
      have sent : sends s₀ (.step input d) = true := by
        cases phase with
        | requesting l context =>
          simp only [sends, stands]
          exact ends
        | _ => cases limited
      have once := complete.once _ mem sent
      rw [reports_step stands, length, limited] at once
      cases once

end

/-- For every request and everything that happens to it and around it: its trace, where it is
stored, is complete if and only if no attempt of a later call ends and no last attempt ends with an
ordinary 429. -/
theorem trace_complete_iff (p : Provider) (env : Env) (t : Nat) (m : MultiTokenManager)
    (lock : Option Nat) (info : TracerInfo) (store : TraceStore)
    (unused : Unused store info.traceId) {trace : List (TracedRequest × TraceAction)}
    {s : TracedRequest} (run : TracedRun p env t (.initial m lock info store) trace s)
    (stored : Stored s) : Complete p trace s ↔ Guarded (Single p) trace :=
  ⟨single_of_complete unused run stored, complete_of_single unused run⟩

def politeProvider : Provider := ⟨fun _ => none, ["ide", "cli"], "ide", .polite, none, true, 1⟩

def asciiEnv : Env := ⟨.ascii, fun _ => none, id⟩

def keyPool : MultiTokenManager where
  config := ⟨"us-east-1", none, none⟩
  entries := [{ id := 1, credentials := { kiroApiKey := some "ksk_1" } }]
  currentId := 1
  loadBalancingMode := "priority"
  enterpriseProfileFetchAttempted := []

def someInfo : TracerInfo :=
  ⟨"4c0e", "2025-01-01T00:00:00Z", 1735689600, 1, "claude-sonnet-4", true⟩

def emptyStore : TraceStore := ⟨[], [], true, 7⟩

def start : TracedRequest := .initial keyPool none someInfo emptyStore

def answeredWith (status : Nat) (body : String) : List TraceAction :=
  List.replicate 6 (.step { answer := .response status body none } ⟨120, ""⟩)

def closes (status : FinalStatus) : TraceAction := .close ⟨status, none, none, none, none, 900⟩

def isSingle (p : Provider) (q : TracedRequest × TraceAction) : Bool :=
  match q.2, q.1.phase with
  | .step input _, some phase =>
    !endsAttempt p input phase || (q.1.rounds == 1 && !limitedAtLast p input phase)
  | _, _ => true

theorem single_of_isSingle (all : trace.all (isSingle p) = true) : Guarded (Single p) trace := by
  intro q mem input d phase cause stands ends
  have here := List.all_eq_true.mp all q mem
  unfold isSingle at here
  rw [cause, stands] at here
  dsimp only at here
  rw [ends] at here
  simpa using here

def hasTrace (s : TracedRequest) : Bool :=
  (s.store.queryInner {}).1.any fun rec => rec.traceId == s.tracer.info.traceId

theorem stored_of_hasTrace (has : hasTrace s = true) : Stored s := by
  obtain ⟨rec, mem, named⟩ := List.any_eq_true.mp has
  exact ⟨{}, rec, mem, beq_iff_eq.mp named⟩

theorem threeAttempts_run :
    ((follow (TracedRequest.next politeProvider asciiEnv 0) [] start
      (.round none :: answeredWith 503 "busy" ++ answeredWith 429 "slow down" ++
        answeredWith 200 "" ++ [closes .success])).any fun reached =>
          reached.1.all (isSingle politeProvider) && hasTrace reached.2 &&
          decide (numbers politeProvider reached.1 = [0, 1, 2])) = true := by
  decide +kernel

theorem trace_complete_iff_threeAttempts : ∃ trace s,
    TracedRun politeProvider asciiEnv 0 start trace s ∧ numbers politeProvider trace = [0, 1, 2] ∧
      Complete politeProvider trace s := by
  obtain ⟨reached, followed, holds⟩ := (Option.any_eq_true _ _).mp threeAttempts_run
  simp only [Bool.and_eq_true, decide_eq_true_eq] at holds
  obtain ⟨⟨single, has⟩, reports⟩ := holds
  obtain ⟨run, -⟩ := follow_run .nil followed
  refine ⟨reached.1, reached.2, run, reports, ?_⟩
  have complete := trace_complete_iff politeProvider asciiEnv 0 keyPool none someInfo emptyStore
    ⟨fun row mem => (by cases mem), rfl⟩ run (stored_of_hasTrace has)
  exact complete.mpr (single_of_isSingle single)

/-- The attempts that are read back, and their number in the record. -/
def readBack (s : TracedRequest) : List (List Nat × Nat) :=
  (s.store.queryInner {}).1.map fun rec => (rec.attempts.map (·.attempt), rec.totalAttempts)

theorem not_complete_of_readBack {read : List Nat} {total : Nat} (has : hasTrace s = true)
    (back : readBack s = [(read, total)]) (fewer : read.length ≠ total) :
    ¬ Complete p trace s := by
  intro complete
  obtain ⟨rec, mem, named⟩ := List.any_eq_true.mp has
  obtain ⟨all, count⟩ := complete.stored {} rec mem (beq_iff_eq.mp named)
  have listed : (rec.attempts.map (·.attempt), rec.totalAttempts) ∈ readBack s :=
    List.mem_map_of_mem mem
  rw [back] at listed
  injection List.mem_singleton.mp listed with numbers same
  rw [← numbers, List.length_map, ← same, count, all] at fewer
  exact fewer rfl

theorem twoRounds_run :
    ((follow (TracedRequest.next politeProvider asciiEnv 0) [] start
      (.round none :: answeredWith 200 "" ++ .round none :: answeredWith 200 "" ++
        [closes .success])).any fun reached =>
          hasTrace reached.2 && decide (readBack reached.2 = [([0], 2)])) = true := by
  decide +kernel

/-- Of two attempts that are reported one is read back. -/
theorem search_loses_attempts : ¬ ∀ (p : Provider) (env : Env) (t : Nat) (m : MultiTokenManager)
    (lock : Option Nat) (info : TracerInfo) (store : TraceStore), Unused store info.traceId →
    ∀ (trace : List (TracedRequest × TraceAction)) (s : TracedRequest),
      TracedRun p env t (.initial m lock info store) trace s → Stored s → Complete p trace s := by
  intro claim
  obtain ⟨reached, followed, holds⟩ := (Option.any_eq_true _ _).mp twoRounds_run
  obtain ⟨has, back⟩ := (Bool.and_eq_true _ _).mp holds
  obtain ⟨run, -⟩ := follow_run .nil followed
  have complete := claim politeProvider asciiEnv 0 keyPool none someInfo emptyStore
    ⟨fun row mem => (by cases mem), rfl⟩ _ _ run (stored_of_hasTrace has)
  exact not_complete_of_readBack has (of_decide_eq_true back) (by decide) complete

def limitedFour : List TraceAction :=
  .round none :: List.replicate 24
    (.step { answer := .response 429 "slow down" none } ⟨120, ""⟩) ++ [closes .error]

theorem limitedFour_run :
    ((follow (TracedRequest.next politeProvider asciiEnv 0) [] start limitedFour).any
      fun reached => hasTrace reached.2 &&
        decide (readBack reached.2 = [([0, 1, 2, 3], 5)])) = true := by
  decide +kernel

theorem limited_reported_twice : ∃ trace s, TracedRun politeProvider asciiEnv 0 start trace s ∧
    Stored s ∧ ¬ Complete politeProvider trace s := by
  obtain ⟨reached, followed, holds⟩ := (Option.any_eq_true _ _).mp limitedFour_run
  obtain ⟨has, back⟩ := (Bool.and_eq_true _ _).mp holds
  obtain ⟨run, -⟩ := follow_run .nil followed
  refine ⟨reached.1, reached.2, run, stored_of_hasTrace has, ?_⟩
  exact not_complete_of_readBack has (of_decide_eq_true back) (by decide)

end KiroRs.Admin.Tracing
