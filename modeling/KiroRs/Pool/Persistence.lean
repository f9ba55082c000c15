/- Path: KiroRs/Pool/Persistence
   source: src/kiro/token_manager.rs, src/kiro/model/credentials.rs
   digest: The credentials file: which operations write it, and the runs after which it holds what
   the pool holds. -/

import KiroRs.Lib.WriteBehind
import KiroRs.Pool.ManualDisable

set_option autoImplicit false
set_option relaxedAutoImplicit false

namespace KiroRs.Pool.Persistence

open KiroRs.Lib.Text
open KiroRs.Lib.Traces
open KiroRs.Lib.WriteBehind
open KiroRs.Pool.Credentials
open KiroRs.Pool.Manager
open KiroRs.Pool.Manager.MultiTokenManager
open KiroRs.Pool.Tasks
open KiroRs.Pool.Selection
open KiroRs.Pool.RefreshInterleaving

def canonicalizeAuthMethodValue (value : String) : String :=
  if eqIgnoreAsciiCase value "builder-id" || eqIgnoreAsciiCase value "iam" then "idc"
  else if eqIgnoreAsciiCase value "api_key" || eqIgnoreAsciiCase value "apikey" then "api_key"
  else value

/-- What `persist_credentials` collects of an entry. -/
def persisted (e : CredentialEntry) : KiroCredentials :=
  { e.credentials with
    authMethod := e.credentials.authMethod.map canonicalizeAuthMethodValue
    disabled := e.disabled }

def collected (m : MultiTokenManager) : List KiroCredentials := m.entries.map persisted

def SameMethod (written held : Option String) : Prop :=
  written = held ∨
    ∃ name canonical, held = some name ∧ written = some canonical ∧
      (eqIgnoreAsciiCase name "builder-id" ∧ canonical = "idc" ∨
        eqIgnoreAsciiCase name "iam" ∧ canonical = "idc" ∨
        eqIgnoreAsciiCase name "api_key" ∧ canonical = "api_key" ∨
        eqIgnoreAsciiCase name "apikey" ∧ canonical = "api_key")

structure SavedAs (c : KiroCredentials) (e : CredentialEntry) : Prop where
  tokens : (c.accessToken, c.refreshToken, c.profileArn, c.expiresAt) =
    (e.credentials.accessToken, e.credentials.refreshToken, e.credentials.profileArn,
      e.credentials.expiresAt)
  key : c.kiroApiKey = e.credentials.kiroApiKey
  disabled : c.disabled = e.disabled
  priority : c.priority = e.credentials.priority
  endpoint : c.endpoint = e.credentials.endpoint
  auth_method : SameMethod c.authMethod e.credentials.authMethod
  auth_metadata : (c.provider, c.clientId, c.clientSecret, c.startUrl) =
    (e.credentials.provider, e.credentials.clientId, e.credentials.clientSecret,
      e.credentials.startUrl)
  regions : (c.region, c.authRegion, c.apiRegion) =
    (e.credentials.region, e.credentials.authRegion, e.credentials.apiRegion)
  proxy : (c.proxyUrl, c.proxyUsername, c.proxyPassword) =
    (e.credentials.proxyUrl, e.credentials.proxyUsername, e.credentials.proxyPassword)
  account : (c.id, c.machineId, c.email, c.subscriptionTitle) =
    (e.credentials.id, e.credentials.machineId, e.credentials.email,
      e.credentials.subscriptionTitle)

/-- The file has the entries of the pool, in their order. -/
def Saved (file : List KiroCredentials) (m : MultiTokenManager) : Prop :=
  List.Forall₂ SavedAs file m.entries

theorem sameMethod_canonicalize (method : Option String) :
    SameMethod (method.map canonicalizeAuthMethodValue) method := by
  cases method with
  | none => exact .inl rfl
  | some value =>
    rw [Option.map_some, canonicalizeAuthMethodValue]
    split_ifs with idc key
    · refine .inr ⟨value, "idc", rfl, rfl, ?_⟩
      rcases Bool.or_eq_true_iff.mp idc with builder | iam
      · exact .inl ⟨builder, rfl⟩
      · exact .inr (.inl ⟨iam, rfl⟩)
    · refine .inr ⟨value, "api_key", rfl, rfl, ?_⟩
      rcases Bool.or_eq_true_iff.mp key with long | short
      · exact .inr (.inr (.inl ⟨long, rfl⟩))
      · exact .inr (.inr (.inr ⟨short, rfl⟩))
    · exact .inl rfl

theorem savedAs_persisted (e : CredentialEntry) : SavedAs (persisted e) e :=
  ⟨rfl, rfl, rfl, rfl, rfl, sameMethod_canonicalize _, rfl, rfl, rfl, rfl⟩

theorem saved_collected (m : MultiTokenManager) : Saved (collected m) m := by
  unfold Saved collected
  induction m.entries with
  | nil => exact .nil
  | cons e es ih => exact .cons (savedAs_persisted e) ih

/-- Who runs: a task of the pool, or the thread of a synchronous operation. -/
inductive Caller where
  | task (t : Nat)
  | thread (n : Nat)
  deriving DecidableEq, Repr

def mayAct : Caller → Action → Bool
  | .task t, .start t' _ | .task t, .task t' _ | .task t, .drop t' => t == t'
  | .thread _, .operation _ => true
  | _, _ => false

/-- An operation ends with `persist_credentials`. -/
def operationPersists (env : Env) (m : MultiTokenManager) : Operation → Bool
  | .setDisabled id disabled => (m.setDisabled id disabled).isOk
  | .disableQuotaExceeded id => (m.disableQuotaExceeded id).isOk
  | .setPriority id priority => (m.setPriorityOf id priority).isOk
  | .setEndpoint id endpoint => (m.setEndpoint id endpoint).isOk
  | .resetAndEnable id => (m.resetAndEnable id).isOk
  | .updateCredential id email proxyUrl proxyUsername proxyPassword =>
      (m.updateCredential id email proxyUrl proxyUsername proxyPassword).isOk
  | .updateAuthMetadata id metadata =>
      (m.find id).any fun e => withMetadata e.credentials metadata != e.credentials
  | .deleteEntry id => (m.deleteEntry id).isOk
  | .updateRefreshToken id token access expires =>
      (m.updateRefreshToken env id token access expires).isOk
  | _ => false

/-- A task's step is followed by `persist_credentials`. -/
def taskPersists (env : Env) (m : MultiTokenManager) (input : Input) : Task → Bool
  | .refreshing purpose _ snapshot =>
      match refreshToken snapshot input.refresh, purpose with
      | .error _, _ => false
      | .ok new, .acquire _ => !isTokenExpired env input.utcNow new
      | .ok _, _ => true
  | .forceRefreshing _ snapshot => (refreshToken snapshot input.refresh).isOk
  | .settingProfile _ id _ _ arn => (m.find id).any fun e => e.credentials.profileArn != some arn
  | .fillingTitle id answer =>
      answer.subscriptionTitle.any fun title =>
        (m.find id).any fun e => e.credentials.subscriptionTitle != some title
  | .fillingEmail id answer =>
      answer.email.any fun _ =>
        (m.find id).any fun e => e.credentials.email.all fun old => trim old == ""
  | .addPushing _ _ => true
  | _ => false

def persists (env : Env) (s : System) : Action → Bool
  | .operation op => operationPersists env s.manager op
  | .task t input => taskPersists env s.manager input (s.tasks t)
  | _ => false

def protocol (env : Env) : Protocol System Action Caller (List KiroCredentials) where
  step := System.step env
  mayAct := mayAct
  persists := persists env
  image s := collected s.manager

abbrev PoolStore := Store System Caller (List KiroCredentials)

def PoolStore.initial (m : MultiTokenManager) : PoolStore where
  memory := System.initial m
  file := collected m
  phase := fun _ => .idle

variable {env : Env} {m : MultiTokenManager} {id : Nat}

theorem persisted_updateFirst {f : CredentialEntry → CredentialEntry} (es : List CredentialEntry)
    (same : ∀ e, es.find? (·.id == id) = some e → persisted (f e) = persisted e) :
    (updateFirst id f es).map persisted = es.map persisted := by
  induction es with
  | nil => rfl
  | cons e es ih =>
      unfold updateFirst
      split_ifs with here
      · have first : (e :: es).find? (·.id == id) = some e := by
          rw [List.find?_cons, beq_iff_eq.mpr here]
        rw [List.map_cons, List.map_cons, same e first]
      · rw [List.map_cons, List.map_cons, ih]
        intro e' found
        refine same e' ?_
        rw [List.find?_cons, beq_false_of_ne here]
        exact found

theorem collected_update {f : CredentialEntry → CredentialEntry}
    (same : ∀ e, m.find id = some e → persisted (f e) = persisted e) :
    collected (m.update id f) = collected m :=
  persisted_updateFirst m.entries same

theorem collected_update_always {f : CredentialEntry → CredentialEntry}
    (same : ∀ e, persisted (f e) = persisted e) : collected (m.update id f) = collected m :=
  collected_update fun e _ => same e

/-- Disabling, enabling and reloading of entries that no administrator asked for: none of it is
written to the file. -/
def Automatic (s : System) : Action → Prop
  | .operation op =>
      match op with
      | .reportFailure _ _ | .reportQuotaExhausted _ _ | .reportRefreshFailure _ _
      | .reportRefreshTokenInvalid _ _ => True
      | _ => False
  | .task t _ =>
      match s.tasks t with
      | .healing _ | .reloading _ _ _ | .reportingInvalid _ _ | .reportingFailure _ _ => True
      | _ => False
  | _ => False

theorem collected_settle {result : Except String MultiTokenManager}
    (refused : result.isOk = false) : settle m result = m := by
  cases result with
  | error e => rfl
  | ok m' => cases refused

theorem collected_apply {s : System} {op : Operation} (asked : ¬ Automatic s (.operation op))
    (unsaved : operationPersists env m op = false) :
    collected (op.apply env m) = collected m := by
  cases op with
  | reportSuccess id stamp => exact collected_update_always fun _ => rfl
  | reportFailure id stamp | reportQuotaExhausted id stamp | reportRefreshFailure id stamp
  | reportRefreshTokenInvalid id stamp => exact absurd trivial asked
  | switchToNext =>
      simp only [Operation.apply, switchToNext]
      split <;> rfl
  | reportAccountThrottled id now later cooldown => exact collected_update_always fun _ => rfl
  | reportRateLimited id now later cooldown =>
      have changed : collected (m.update id fun e =>
          { e with
            rateLimitedUntil := extend e.rateLimitedUntil (now + cooldown)
            totalFailureCount := e.totalFailureCount + 1 }) = collected m :=
        collected_update_always fun _ => rfl
      rw [← changed]
      simp only [Operation.apply, reportRateLimited]
      repeat' split
      all_goals rfl
  | setDisabled id _ | disableQuotaExceeded id | setPriority id _ | setEndpoint id _
  | resetAndEnable id | updateCredential id _ _ _ _ | updateRefreshToken id _ _ _ =>
      exact congrArg collected (collected_settle unsaved)
  | clearThrottle id =>
      simp only [Operation.apply, clearThrottle, editEntry]
      split
      · rfl
      · exact collected_update_always fun _ => rfl
  | selectHighestPriority => exact congrArg (·.map persisted) entries_switchToBest
  | resetSuccessCount id =>
      cases id with
      | some id =>
          simp only [Operation.apply, resetSuccessCount, editEntry]
          split
          · rfl
          · exact collected_update_always fun _ => rfl
      | none =>
          show (m.entries.map fun e => { e with successCount := 0 }).map persisted = _
          rw [List.map_map]
          rfl
  | updateAuthMetadata id metadata =>
      simp only [Operation.apply, updateAuthMetadata, editEntry]
      split
      · rfl
      · refine collected_update fun e found => ?_
        have same : withMetadata e.credentials metadata = e.credentials := by
          simpa [operationPersists, found] using unsaved
        unfold persisted
        dsimp only
        rw [same]
  | deleteEntry id =>
      cases deleted : m.deleteEntry id with
      | error e => simp only [Operation.apply, deleted]; rfl
      | ok r =>
          simp only [operationPersists, deleted] at unsaved
          cases unsaved
  | resetCurrentIfEmpty =>
      simp only [Operation.apply, resetCurrentIfEmpty]
      split_ifs <;> rfl
  | setLoadBalancingMode mode =>
      simp only [Operation.apply, setLoadBalancingMode]
      split_ifs <;> rfl
  | updateGlobalConfigRuntime config => rfl

theorem collected_updateCredentials {f : KiroCredentials → KiroCredentials}
    (same : ∀ e, m.find id = some e → f e.credentials = e.credentials) :
    collected (m.updateCredentials id f) = collected m := by
  refine collected_update fun e found => ?_
  unfold persisted
  dsimp only
  rw [same e found]

theorem collected_stepTask {s : System} {t : Nat} {input : Input} {lock : Option Nat} {next : Next}
    (asked : ¬ Automatic s (.task t input))
    (unsaved : taskPersists env m input (s.tasks t) = false)
    (step : stepTask env t input m lock (s.tasks t) = some next) :
    collected next.manager = collected m := by
  unfold Automatic at asked
  dsimp only at asked
  generalize s.tasks t = task at asked unsaved step
  cases task with
  | healing _ | reloading _ _ _ | reportingInvalid _ _ | reportingFailure _ _ =>
      exact absurd trivial asked
  | refreshing purpose id snapshot =>
      unfold stepTask at step
      unfold taskPersists at unsaved
      dsimp only at step unsaved
      cases answer : refreshToken snapshot input.refresh with
      | error e =>
          rw [answer] at step
          cases step
          rfl
      | ok new =>
          rw [answer] at step unsaved
          cases purpose with
          | acquire a =>
              have expired : isTokenExpired env input.utcNow new = true := by simpa using unsaved
              dsimp only at step
              rw [if_pos expired] at step
              cases step
              rfl
          | usage | models | preference => cases unsaved
  | forceRefreshing id snapshot =>
      unfold stepTask at step
      unfold taskPersists at unsaved
      dsimp only at step unsaved
      cases answer : refreshToken snapshot input.refresh with
      | error e =>
          rw [answer] at step
          cases step
          rfl
      | ok new =>
          rw [answer] at unsaved
          cases unsaved
  | settingProfile a id credentials token arn =>
      unfold stepTask at step
      unfold taskPersists at unsaved
      dsimp only at step unsaved
      split at step
      · cases step
        rfl
      · next e found =>
        cases step
        refine collected_updateCredentials fun e' found' => ?_
        have same : e'.credentials.profileArn = some arn := by
          simpa [found'] using unsaved
        rw [← same]
  | fillingTitle id answer =>
      unfold stepTask at step
      unfold taskPersists at unsaved
      dsimp only at step unsaved
      split at step
      · cases step
        rfl
      · next title known =>
        cases step
        refine collected_updateCredentials fun e found => ?_
        have same : e.credentials.subscriptionTitle = some title := by
          simpa [found, known] using unsaved
        rw [← same]
  | fillingEmail id answer =>
      unfold stepTask at step
      unfold taskPersists at unsaved
      dsimp only at step unsaved
      split at step
      · cases step
        rfl
      · next email known =>
        cases step
        refine collected_updateCredentials fun e found => ?_
        have kept : (e.credentials.email.all fun old => trim old == "") = false := by
          simpa [found, known] using unsaved
        rw [if_neg (by rw [kept]; exact Bool.false_ne_true)]
  | addPushing id credentials => cases unsaved
  | finishing a id credentials token =>
      cases step
      exact collected_update_always fun _ => rfl
  | idle | returned _ _ | done | failed => cases step
  | loopHead _ | stickyCheck _ | selecting _ | reselecting _ | switching _ _ _ | reading _ _
  | token _ _ _ | lockWait _ _ | rereading _ _ | profile _ _ _ _ | fetchingProfile _ _ _ _
  | fallbackProfile _ _ _ _ | recovering _ _ | querying _ _ | awaitingUsage _ | forceReading _
  | forceWaiting _ _ | adding _ | addRefreshing _ | addChoosing _ _ =>
      unfold stepTask at step
      dsimp only at step
      repeat' split at step
      all_goals first | cases step; rfl | cases step

def Unrecorded (env : Env) (s : System) (a : Action) : Prop :=
  Automatic s a ∧ ∃ next, System.step env s a = some next ∧
    collected next.manager ≠ collected s.manager

/-- An old snapshot is about to be written, and nobody else is left who brings the present entries
to the file. -/
def Outdated (env : Env) (s : PoolStore) (caller : Caller) : Prop :=
  ∃ copy, s.phase caller = .writing copy ∧ copy ≠ collected s.memory.manager ∧
    ∀ other, other ≠ caller → ¬ Brings (protocol env) s other

def Recorded (env : Env) (s : PoolStore) : Move Action Caller → Prop
  | .act _ a => ¬ Unrecorded env s.memory a
  | .copy _ => True
  | .write caller => ¬ Outdated env s caller

theorem collected_step {s next : System} {a : Action} (step : System.step env s a = some next)
    (unsaved : persists env s a = false) (recorded : ¬ Unrecorded env s a) :
    collected next.manager = collected s.manager := by
  by_cases asked : Automatic s a
  · by_contra changed
    exact recorded ⟨asked, next, step, changed⟩
  · cases a with
    | start t call =>
        unfold System.step at step
        dsimp only at step
        split_ifs at step
        cases step
        rfl
    | task t input =>
        obtain ⟨stepped, inner, rfl⟩ := Option.map_eq_some_iff.mp step
        exact collected_stepTask asked unsaved inner
    | drop t =>
        unfold System.step at step
        dsimp only at step
        split_ifs at step
        cases step
        rfl
    | operation op =>
        cases step
        exact collected_apply asked unsaved

theorem inTurn_of_recorded {s : PoolStore} {move : Move Action Caller}
    (recorded : Recorded env s move) : InTurn (protocol env) s move := by
  cases move with
  | act caller a =>
      intro next step unsaved
      exact collected_step step unsaved recorded
  | copy caller => trivial
  | write caller =>
      intro copy stands
      by_contra late
      have stale : copy ≠ collected s.memory.manager := fun same => late (.inl same)
      exact recorded ⟨copy, stands, stale, fun other ne brings => late (.inr ⟨other, ne, brings⟩)⟩

/-- After any interleaving of recorded steps the file holds the entries once every caller is
done. -/
theorem file_upToDate (env : Env) (m : MultiTokenManager) (s : PoolStore)
    (trace : List (PoolStore × Move Action Caller))
    (run : Run (protocol env).next (PoolStore.initial m) trace s)
    (recorded : Guarded (Recorded env) trace) (quiet : Quiet s) :
    Saved s.file s.memory.manager := by
  have turns : Guarded (InTurn (protocol env)) trace :=
    fun p mem => inTurn_of_recorded (recorded p mem)
  have file : s.file = collected s.memory.manager := saved_of_inTurn rfl run turns quiet
  rw [file]
  exact saved_collected s.memory.manager

def idlePhase : Phase (List KiroCredentials) → Bool
  | .idle => true
  | _ => false

def quietCheck (callers : List Caller)
    (reached : List (PoolStore × Move Action Caller) × PoolStore) : Bool :=
  reached.1.all (fun p => callers.contains p.2.writer) &&
    callers.all fun caller => idlePhase (reached.2.phase caller)

theorem quiet_of_check {s : PoolStore} {trace : List (PoolStore × Move Action Caller)}
    {callers : List Caller} (run : Run (protocol env).next (PoolStore.initial m) trace s)
    (checked : quietCheck callers (trace, s) = true) : Quiet s := by
  obtain ⟨within, done⟩ := Bool.and_eq_true_iff.mp checked
  intro caller
  by_cases listed : caller ∈ callers
  · have idle := List.all_eq_true.mp done caller listed
    cases stands : s.phase caller with
    | idle => rfl
    | due | writing copy =>
      rw [stands] at idle
      cases idle
  · refine phase_of_absent run fun q mem => ?_
    rintro rfl
    exact listed (List.contains_iff_mem.mp (List.all_eq_true.mp within q mem))

/-- One administrator disables the entry, another one sets its priority, and the first snapshot is
written last. -/
def overtaking : List (Move Action Caller) :=
  [.act (.thread 0) (.operation (.setDisabled 1 true)), .copy (.thread 0),
    .act (.thread 1) (.operation (.setPriority 1 7)), .copy (.thread 1), .write (.thread 1),
    .write (.thread 0)]

theorem overtaking_run :
    ((follow (protocol plainEnv).next [] (PoolStore.initial single) overtaking).any fun reached =>
      quietCheck [.thread 0, .thread 1] reached && reached.2.file.map (·.priority) == [0] &&
        reached.2.memory.manager.entries.map (·.credentials.priority) == [7]) = true := by
  decide +kernel

theorem priorities_of_saved {file : List KiroCredentials} (saved : Saved file m) :
    file.map (·.priority) = m.entries.map (·.credentials.priority) := by
  unfold Saved at saved
  generalize m.entries = entries at saved ⊢
  induction saved with
  | nil => rfl
  | cons same _ ih => rw [List.map_cons, List.map_cons, same.priority, ih]

/-- The priority that was set is in no file. -/
theorem snapshot_overtaken :
    ¬ ∀ (env : Env) (m : MultiTokenManager) (s : PoolStore)
      (trace : List (PoolStore × Move Action Caller)),
      Run (protocol env).next (PoolStore.initial m) trace s → Quiet s →
        Saved s.file s.memory.manager := by
  intro claim
  obtain ⟨trace, s, run, -, holds⟩ := exists_run_of_follow overtaking_run
  simp only [Bool.and_eq_true, beq_iff_eq] at holds
  obtain ⟨⟨checked, written⟩, held⟩ := holds
  have same := priorities_of_saved (claim _ _ _ _ run (quiet_of_check run checked))
  rw [written, held] at same
  cases same

/-- The step changes nothing that the file should hold, or is one that an administrator or an
answer of the upstream asked for. -/
def recordedAct (env : Env) (s : System) (a : Action) : Bool :=
  ((System.step env s a).all fun next => decide (collected next.manager = collected s.manager)) ||
    match a with
    | .operation (.setDisabled _ _) | .operation (.setPriority _ _) => true
    | .task t _ =>
      match s.tasks t with
      | .forceRefreshing _ _ => true
      | _ => false
    | _ => false

def recordedCheck (env : Env) (callers : List Caller) (p : PoolStore × Move Action Caller) : Bool :=
  match p.2 with
  | .act _ a => recordedAct env p.1.memory a
  | .copy _ => true
  | .write caller =>
    match p.1.phase caller with
    | .writing copy =>
      decide (copy = collected p.1.memory.manager) || callers.any fun other =>
        other != caller &&
          match p.1.phase other with
          | .due => true
          | .writing copy => decide (copy = collected p.1.memory.manager)
          | .idle => false
    | _ => true

theorem recorded_of_act {s : System} {a : Action} (checked : recordedAct env s a = true) :
    ¬ Unrecorded env s a := by
  rintro ⟨asked, next, step, changed⟩
  rcases Bool.or_eq_true_iff.mp checked with same | expected
  · rw [step, Option.all_some, decide_eq_true_eq] at same
    exact changed same
  · cases a with
    | operation op => cases op <;> first | exact asked | cases expected
    | task t input =>
      unfold Automatic at asked
      dsimp only at asked expected
      cases stands : s.tasks t <;> rw [stands] at asked expected <;>
        first | exact asked | cases expected
    | start t call | drop t => cases expected

theorem recorded_of_check {callers : List Caller} {s : PoolStore} {move : Move Action Caller}
    (checked : recordedCheck env callers (s, move) = true) : Recorded env s move := by
  cases move with
  | act caller a => exact recorded_of_act checked
  | copy caller => trivial
  | write caller =>
    rintro ⟨copy, stands, stale, nobody⟩
    unfold recordedCheck at checked
    dsimp only at checked
    rw [stands] at checked
    rcases Bool.or_eq_true_iff.mp checked with current | brought
    · exact stale (of_decide_eq_true current)
    · obtain ⟨other, -, brings⟩ := List.any_eq_true.mp brought
      obtain ⟨ne, phase⟩ := Bool.and_eq_true_iff.mp brings
      refine nobody other (bne_iff_ne.mp ne) ?_
      cases other_stands : s.phase other with
      | idle =>
        rw [other_stands] at phase
        cases phase
      | due => exact .inl other_stands
      | writing copy =>
        rw [other_stands] at phase
        exact .inr (other_stands.trans (congrArg _ (of_decide_eq_true phase)))

/-- A refresh and two administrators write the file. The snapshot of the refresh is old when it is
written, and the administrators' are taken behind each other's change. -/
def threeWriters : List (Move Action Caller) :=
  [.act (.task 0) (.start 0 (.forceRefreshTokenFor 1)), .act (.task 0) (.task 0 {}),
    .act (.task 0) (.task 0 {}), .act (.task 0) (.task 0 { refresh := .ok newToken }),
    .copy (.task 0), .act (.thread 0) (.operation (.setDisabled 1 true)),
    .act (.thread 1) (.operation (.reportFailure 1 "now")), .write (.task 0),
    .act (.thread 1) (.operation (.setPriority 1 7)), .copy (.thread 1), .copy (.thread 0),
    .write (.thread 0), .write (.thread 1)]

theorem threeWriters_run :
    ((follow (protocol plainEnv).next [] (PoolStore.initial single) threeWriters).any
      fun reached => quietCheck [.task 0, .thread 0, .thread 1] reached &&
        reached.1.all (recordedCheck plainEnv [.task 0, .thread 0, .thread 1]) &&
        reached.1.length == 13 && reached.2.memory.manager.entries.map (fun e =>
          (e.credentials.accessToken, e.disabled, e.credentials.priority)) ==
            [(some "access", true, 7)]) = true := by
  decide +kernel

theorem file_upToDate_three : ∃ (s : PoolStore) (trace : List (PoolStore × Move Action Caller)),
    Run (protocol plainEnv).next (PoolStore.initial single) trace s ∧
      trace.length = 13 ∧ Saved s.file s.memory.manager ∧
      s.memory.manager.entries.map (fun e => (e.credentials.accessToken, e.disabled,
        e.credentials.priority)) = [(some "access", true, 7)] := by
  obtain ⟨trace, s, run, -, holds⟩ := exists_run_of_follow threeWriters_run
  simp only [Bool.and_eq_true, beq_iff_eq, List.all_eq_true] at holds
  obtain ⟨⟨⟨quiet, checked⟩, moves⟩, held⟩ := holds
  exact ⟨s, trace, run, moves, file_upToDate plainEnv single s trace run
    (fun p mem => recorded_of_check (checked p mem)) (quiet_of_check run quiet), held⟩

end KiroRs.Pool.Persistence
