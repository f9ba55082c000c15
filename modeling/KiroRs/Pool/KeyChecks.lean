/- Path: KiroRs/Pool/KeyChecks
   source: src/kiro/token_manager.rs
   digest: API-key credentials without a key: the places that enable entries or change their method,
   and the runs in which no enabled entry lacks its key. -/

import KiroRs.Pool.Additions

set_option autoImplicit false
set_option relaxedAutoImplicit false

namespace KiroRs.Pool.KeyChecks

open KiroRs.Lib.Text
open KiroRs.Lib.Traces
open KiroRs.Pool.Credentials
open KiroRs.Pool.Manager
open KiroRs.Pool.Manager.MultiTokenManager
open KiroRs.Pool.Tasks
open KiroRs.Pool.Startup
open KiroRs.Pool.Selection (plainEnv)
open KiroRs.Pool.Changes
open KiroRs.Pool.Invariants (new_ok fromStart fromStart_run)
open KiroRs.Pool.Additions (adds adds_call addStep_of_step AddStep)

def Keyed (e : CredentialEntry) : Prop := e.disabled = false → lacksKey e.credentials = false

def AllKeyed (m : MultiTokenManager) : Prop := ∀ e ∈ m.entries, Keyed e

/-- No enabled entry lacks its key, and `acquire_context` selects none that does. -/
structure KeysHeld (env : Env) (m : MultiTokenManager) : Prop where
  entries : AllKeyed m
  next : ∀ now model e, m.selectNextCredential env now model = some e →
    lacksKey e.credentials = false
  current : ∀ now e, m.currentHit now = some e → lacksKey e.credentials = false

/-- A step that enables an entry, or gives an enabled one another method, finds it with its key. -/
def Checks (s : System) : Action → Prop
  | .operation (.setDisabled id false) =>
    ∀ e, s.manager.find id = some e → lacksKey e.credentials = false
  | .operation (.resetAndEnable id) => ∀ e, s.manager.find id = some e →
    e.disabledReason ≠ some .invalidConfig → lacksKey e.credentials = false
  | .operation (.updateAuthMetadata id metadata) => ∀ e, s.manager.find id = some e →
    e.disabled = false → lacksKey (withMetadata e.credentials metadata) = false
  | .task t _ =>
    match s.tasks t with
    | .healing _ => ∀ e ∈ s.manager.entries, e.disabledReason = some .tooManyFailures →
        lacksKey e.credentials = false
    | .reloading _ id _ => ∀ e, s.manager.find id = some e → lacksKey e.credentials = false
    | _ => True
  | _ => True

variable {env : Env} {m : MultiTokenManager} {id : Nat} {s s' : System} {a : Action}

theorem lacksKey_of_not_apiKey {c : KiroCredentials} (other : c.isApiKeyCredential = false) :
    lacksKey c = false := by
  unfold KiroCredentials.isApiKeyCredential at other
  unfold lacksKey
  rw [(Bool.or_eq_false_iff.mp other).2, Bool.and_false]

theorem lacksKey_of_key {c : KiroCredentials} {key : String} (holds : c.kiroApiKey = some key) :
    lacksKey c = false := by
  unfold lacksKey
  rw [holds]
  rfl

theorem lacksKey_refreshed {c new : KiroCredentials}
    {answer : Except RefreshError RefreshResponse} (ok : refreshToken c answer = .ok new) :
    lacksKey new = false := by
  have other : c.isApiKeyCredential = false := by
    by_contra key
    unfold refreshToken at ok
    rw [if_pos (Bool.eq_true_of_not_eq_false key)] at ok
    cases ok
  obtain ⟨data, -, rfl⟩ := refreshToken_ok ok
  exact lacksKey_of_not_apiKey other

theorem lacksKey_of_addCheck {new : KiroCredentials} (passes : (addCheck env m new).isOk = true) :
    lacksKey new = false := by
  cases key : new.isApiKeyCredential with
  | false => exact lacksKey_of_not_apiKey key
  | true =>
    unfold addCheck at passes
    rw [if_pos key] at passes
    cases holds : new.kiroApiKey with
    | none =>
      rw [holds] at passes
      cases passes
    | some k => exact lacksKey_of_key holds

theorem authMethod_filled (c : KiroCredentials) (region : Option String) :
    (c.fillDefaultProfileArnWithRegion region).authMethod = c.authMethod := by
  unfold KiroCredentials.fillDefaultProfileArnWithRegion
  split_ifs <;> rfl

theorem lacksKey_addFinish {new : KiroCredentials} (config : Config) (id : Nat)
    (validated : KiroCredentials) (has : lacksKey new = false) :
    lacksKey (addFinish config id new validated) = false := by
  have method : (addFinish config id new validated).authMethod = new.authMethod.map fun m =>
      if eqIgnoreAsciiCase m "builder-id" || eqIgnoreAsciiCase m "iam" then "idc" else m :=
    authMethod_filled _ _
  have key : (addFinish config id new validated).kiroApiKey = new.kiroApiKey := rfl
  unfold lacksKey at has ⊢
  rw [method, key]
  cases named : new.authMethod with
  | none => exact Bool.and_false _
  | some m =>
    rw [named] at has
    rw [Option.map_some]
    split_ifs
    · have idc : KiroCredentials.named (some "idc") ["api_key", "apikey"] = false := by
        decide +kernel
      rw [idc, Bool.and_false]
    · exact has

theorem AllKeyed.congr {m' : MultiTokenManager} (all : AllKeyed m)
    (same : m'.entries = m.entries) : AllKeyed m' := by
  unfold AllKeyed
  rw [same]
  exact all

theorem AllKeyed.update {f : CredentialEntry → CredentialEntry} (all : AllKeyed m)
    (each : ∀ e, m.find id = some e → Keyed e → Keyed (f e)) : AllKeyed (m.update id f) := by
  have changes := forall₂_updateFirst (R := fun e e' => Keyed e → Keyed e')
    (fun _ keyed => keyed) m.entries each
  intro e' mem
  obtain ⟨e, before, keeps⟩ := exists_of_forall₂ changes mem
  exact keeps (all e before)

theorem AllKeyed.update_same {f : CredentialEntry → CredentialEntry} (all : AllKeyed m)
    (enables : ∀ e, (f e).disabled = false → e.disabled = false)
    (lacks : ∀ e, lacksKey (f e).credentials = lacksKey e.credentials) :
    AllKeyed (m.update id f) := by
  refine all.update fun e _ keyed on => ?_
  rw [lacks]
  exact keyed (enables e on)

theorem AllKeyed.disable {f : CredentialEntry → CredentialEntry} (all : AllKeyed m)
    (off : ∀ e, (f e).disabled = true) : AllKeyed (m.update id f) := by
  refine all.update fun e _ _ on => ?_
  rw [off] at on
  cases on

theorem AllKeyed.switchToBest (all : AllKeyed m) : AllKeyed m.switchToBest :=
  all.congr entries_switchToBest

theorem AllKeyed.settle {result : Except String MultiTokenManager} (all : AllKeyed m)
    (each : ∀ m', result = .ok m' → AllKeyed m') : AllKeyed (settle m result) := by
  cases result with
  | error message => exact all
  | ok m' => exact each m' rfl

theorem AllKeyed.editEntry {f : CredentialEntry → CredentialEntry} (all : AllKeyed m)
    (each : ∀ e, m.find id = some e → Keyed e → Keyed (f e)) :
    AllKeyed (Tasks.settle m (m.editEntry id f)) := by
  refine all.settle fun m' ok => ?_
  unfold MultiTokenManager.editEntry at ok
  split at ok
  · cases ok
  · cases ok
    exact all.update each

theorem AllKeyed.onEnabled {report : CredentialEntry → MultiTokenManager × Bool}
    (all : AllKeyed m) (each : ∀ e, m.find id = some e → AllKeyed (report e).1) :
    AllKeyed (m.onEnabled id report).1 := by
  unfold MultiTokenManager.onEnabled
  split
  · exact all
  · next e found =>
    split_ifs
    · exact all
    · exact each e found

theorem AllKeyed.reportRefreshFailure (all : AllKeyed m) (stamp : String) :
    AllKeyed (m.reportRefreshFailure id stamp).1 := by
  refine all.onEnabled fun e _ => ?_
  dsimp only
  split_ifs
  · exact all.update_same (fun _ on => on) fun _ => rfl
  · exact (all.disable fun _ => rfl).switchToBest

theorem AllKeyed.reportRefreshTokenInvalid (all : AllKeyed m) (stamp : String) :
    AllKeyed (m.reportRefreshTokenInvalid id stamp).1 :=
  all.onEnabled fun _ _ => (all.disable fun _ => rfl).switchToBest

theorem keyed_apply {op : Operation} (all : AllKeyed s.manager)
    (checks : Checks s (.operation op)) :
    AllKeyed (op.apply env s.manager) := by
  generalize manager : s.manager = m at all ⊢
  cases op with
  | reportSuccess id stamp => exact all.update_same (fun _ on => on) fun _ => rfl
  | reportFailure id stamp =>
    refine all.onEnabled fun e _ => ?_
    dsimp only
    split_ifs
    · exact (all.disable fun _ => rfl).switchToBest
    · exact all.update_same (fun _ on => on) fun _ => rfl
  | reportQuotaExhausted id stamp =>
    exact all.onEnabled fun _ _ => (all.disable fun _ => rfl).switchToBest
  | reportRefreshFailure id stamp => exact all.reportRefreshFailure stamp
  | reportRefreshTokenInvalid id stamp => exact all.reportRefreshTokenInvalid stamp
  | switchToNext =>
    refine all.congr ?_
    unfold Operation.apply MultiTokenManager.switchToNext
    dsimp only
    split <;> rfl
  | reportAccountThrottled id now later cooldown =>
    exact all.update_same (fun _ on => on) fun _ => rfl
  | reportRateLimited id now later cooldown =>
    have cooled : AllKeyed (m.update id fun e =>
        { e with
          rateLimitedUntil := extend e.rateLimitedUntil (now + cooldown)
          totalFailureCount := e.totalFailureCount + 1 }) :=
      all.update_same (fun _ on => on) fun _ => rfl
    unfold Operation.apply MultiTokenManager.reportRateLimited
    dsimp only
    split_ifs
    · split
      · exact cooled.congr rfl
      · exact cooled
    · exact cooled
  | setDisabled id disabled =>
    refine all.editEntry fun e found keyed on => ?_
    cases disabled with
    | true => cases on
    | false => exact checks e (by rw [manager]; exact found)
  | clearThrottle id | setPriority id _ | setEndpoint id _ | updateCredential id _ _ _ _ =>
    exact all.editEntry fun e _ keyed on => keyed on
  | disableQuotaExceeded id =>
    refine all.editEntry fun e _ _ on => ?_
    cases on
  | selectHighestPriority => exact all.switchToBest
  | resetAndEnable id =>
    refine all.settle fun m' ok => ?_
    unfold MultiTokenManager.resetAndEnable at ok
    split at ok
    · cases ok
    · next e found =>
      split_ifs at ok with invalid
      cases ok
      refine all.update fun e' found' _ _ => ?_
      rw [found] at found'
      cases found'
      exact checks e (by rw [manager]; exact found) invalid
  | resetSuccessCount id =>
    cases id with
    | some id => exact all.editEntry fun e _ keyed on => keyed on
    | none =>
      intro e' mem
      obtain ⟨e, before, rfl⟩ := List.mem_map.mp mem
      exact all e before
  | updateAuthMetadata id metadata =>
    refine all.editEntry fun e found _ on => ?_
    exact checks e (by rw [manager]; exact found) on
  | deleteEntry id =>
    refine all.settle fun m' ok => ?_
    unfold MultiTokenManager.deleteEntry at ok
    split at ok
    · cases ok
    · split_ifs at ok
      · cases ok
      · cases ok
        exact fun e mem => all e (List.mem_of_mem_filter mem)
  | resetCurrentIfEmpty =>
    refine all.congr ?_
    unfold Operation.apply MultiTokenManager.resetCurrentIfEmpty
    dsimp only
    split_ifs <;> rfl
  | updateRefreshToken id token access expires =>
    refine all.settle fun m' ok => ?_
    obtain ⟨-, -, -, -, -, -, rfl⟩ := updateRefreshToken_ok ok
    exact all.update_same (fun _ on => on) fun _ => rfl
  | setLoadBalancingMode mode =>
    refine all.settle fun m' ok => ?_
    unfold MultiTokenManager.setLoadBalancingMode at ok
    split_ifs at ok
    cases ok
    exact all
  | updateGlobalConfigRuntime config => exact all

def Ready : Task → Prop
  | .addRefreshing new | .addChoosing new _ => lacksKey new = false
  | .addPushing _ c => lacksKey c = false
  | _ => True

theorem ready_of_not_adds {task : Task} (other : adds task = false) : Ready task := by
  cases task with
  | addRefreshing | addChoosing | addPushing => cases other
  | _ => trivial

theorem ready_stepTask {t : Nat} {input : Input} {lock : Option Nat} {task : Task} {next : Next}
    (step : stepTask env t input m lock task = some next) (ready : Ready task) :
    Ready next.task := by
  cases adding : adds next.task with
  | false => exact ready_of_not_adds adding
  | true =>
    obtain ⟨added, -⟩ := addStep_of_step step adding
    generalize next.task = task' at added
    cases added with
    | checked new task' passes waits same unpushed =>
      have has := lacksKey_of_addCheck passes
      cases task' with
      | addRefreshing n =>
        cases same
        exact has
      | addChoosing n v =>
        cases same
        exact has
      | addPushing => cases unpushed
      | _ => trivial
    | validated new validated => exact ready
    | chosen new validated => exact lacksKey_addFinish _ _ _ ready

theorem keyed_stepTask {t : Nat} {input : Input} {lock : Option Nat} {next : Next}
    (all : AllKeyed s.manager) (checks : Checks s (.task t input)) (ready : Ready (s.tasks t))
    (step : stepTask env t input s.manager lock (s.tasks t) = some next) :
    AllKeyed next.manager := by
  unfold Checks at checks
  dsimp only at checks
  generalize s.tasks t = task at checks ready step
  generalize s.manager = m at all checks step
  cases task with
  | healing attempt =>
    simp only [stepTask] at step
    split_ifs at step
    · cases step
      intro e' mem
      obtain ⟨e, before, rfl⟩ := List.mem_map.mp mem
      split_ifs with failures
      · exact fun _ => checks e before failures
      · exact all e before
    · cases step
      exact all
  | refreshing purpose id snapshot =>
    have wrote : ∀ new, refreshToken snapshot input.refresh = .ok new →
        AllKeyed (writeBack m id new) :=
      fun new answer => all.update fun e _ _ _ => lacksKey_refreshed answer
    simp only [stepTask] at step
    repeat' split at step
    all_goals cases step
    all_goals first
      | exact all
      | exact wrote _ ‹_›
  | forceRefreshing id snapshot =>
    simp only [stepTask] at step
    split at step
    · cases step
      exact all
    · next new answer =>
      cases step
      have wrote : AllKeyed (writeBack m id new) :=
        all.update fun e _ _ _ => lacksKey_refreshed answer
      exact wrote.update_same (fun _ on => on) fun _ => rfl
  | settingProfile attempt id c token arn =>
    simp only [stepTask] at step
    split at step
    · cases step
      exact all
    · cases step
      exact all.update_same (fun _ on => on) fun _ => rfl
  | fillingTitle id answer =>
    simp only [stepTask] at step
    split at step
    · cases step
      exact all
    · cases step
      exact all.update_same (fun _ on => on) fun _ => rfl
  | fillingEmail id answer =>
    simp only [stepTask] at step
    split at step
    · cases step
      exact all
    · cases step
      refine all.update_same (fun _ on => on) fun e => ?_
      dsimp only
      split_ifs <;> rfl
  | finishing attempt id c token =>
    cases step
    exact all.update_same (fun _ on => on) fun _ => rfl
  | reloading attempt id found =>
    cases step
    exact all.update fun e there _ _ => checks e there
  | reportingInvalid attempt id =>
    cases step
    exact all.reportRefreshTokenInvalid input.stamp
  | reportingFailure attempt id =>
    cases step
    exact all.reportRefreshFailure input.stamp
  | addPushing id c =>
    cases step
    intro e mem
    rcases List.mem_append.mp mem with old | new
    · exact all e old
    · cases List.mem_singleton.mp new
      exact fun _ => ready
  | _ =>
    simp only [stepTask] at step
    repeat' split at step
    all_goals first
      | cases step
        exact all.congr rfl
      | cases step

/-- The entries have their keys, and so do those that are about to be added. -/
structure KeySystem (s : System) : Prop where
  entries : AllKeyed s.manager
  tasks : ∀ t, Ready (s.tasks t)

theorem ready_call (m : MultiTokenManager) (call : Call) : Ready (call.task m) := by
  cases adding : adds (call.task m) with
  | false => exact ready_of_not_adds adding
  | true =>
    obtain ⟨new, -, task⟩ := adds_call adding
    rw [task]
    trivial

theorem keySystem_step (inv : KeySystem s) (checks : Checks s a)
    (step : s.step env a = some s') : KeySystem s' := by
  constructor
  · cases a with
    | start t call =>
      unfold System.step at step
      dsimp only at step
      split_ifs at step
      cases step
      exact inv.entries
    | drop t =>
      unfold System.step at step
      dsimp only at step
      split_ifs at step
      cases step
      exact inv.entries
    | operation op =>
      cases step
      exact keyed_apply inv.entries checks
    | task t input =>
      obtain ⟨next, taken, rfl⟩ := Option.map_eq_some_iff.mp step
      exact keyed_stepTask inv.entries checks (inv.tasks t) taken
  · intro t
    rcases task_step step t with same | ⟨call, -, starts⟩ | ⟨input, next, -, taken, goes, -⟩ |
      ⟨-, dropped⟩
    · rw [same]
      exact inv.tasks t
    · rw [starts]
      exact ready_call _ call
    · rw [goes]
      exact ready_stepTask taken (inv.tasks t)
    · rw [dropped]
      trivial

theorem keyed_new {src : Sources} (started : Startup.MultiTokenManager.new src = .ok m) :
    AllKeyed m := by
  intro e mem
  rw [(new_ok started).1] at mem
  obtain ⟨e₀, there, rfl⟩ := List.mem_map.mp mem
  obtain ⟨p, -, rfl⟩ := List.mem_map.mp there
  obtain ⟨-, credentials, disabled, -⟩ := withStats_eq src.stats
    (checkConfig (startEntry src.config src.machineId p))
  intro on
  rw [disabled] at on
  rw [credentials]
  unfold checkConfig at on ⊢
  split_ifs at on ⊢ with lacks
  · exact Bool.eq_false_of_not_eq_true lacks

theorem keysHeld_of_keyed (env : Env) (all : AllKeyed m) : KeysHeld env m := by
  refine ⟨all, fun now model e chosen => ?_, fun now e hit => ?_⟩
  · obtain ⟨mem, eligible⟩ := Selection.eligible_of_selectNextCredential chosen
    exact all e mem eligible.enabled
  · have usable := List.find?_some hit
    simp only [Bool.and_eq_true, Bool.not_eq_true'] at usable
    exact all e (List.mem_of_find?_eq_some hit) usable.1.1.2

/-- In every run whose steps look for the key where they enable an entry or change its method, no
enabled entry lacks its key. -/
theorem keys_held (env : Env) (src : Sources) (m : MultiTokenManager)
    (started : Startup.MultiTokenManager.new src = .ok m) (trace : List (System × Action))
    (s : System) (run : PoolRun env m trace s) (checks : Guarded Checks trace) :
    KeysHeld env s.manager := by
  have initial : KeySystem (System.initial m) := ⟨keyed_new started, fun t => trivial⟩
  have inv : KeySystem s := run.invariant_state initial
    (fun _ _ _ inv checks step => keySystem_step inv checks step) checks
  exact keysHeld_of_keyed env inv.entries

def oneKeyMissing : Sources :=
  ⟨⟨"us-east-1", none, none⟩, "priority",
    [{ id := some 1, authMethod := some "api_key" }, { id := some 2, kiroApiKey := some "ksk_2" }],
    fun _ => "machine", []⟩

theorem oneKeyMissing_enabled :
    ((fromStart oneKeyMissing [.operation (.setDisabled 1 false)]).any fun reached =>
      reached.2.manager.entries.any fun e => !e.disabled && lacksKey e.credentials) = true := by
  decide +kernel

/-- The administrator enables the entry that the start had disabled. -/
theorem enabled_without_key : ¬ ∀ (env : Env) (src : Sources) (m : MultiTokenManager),
    Startup.MultiTokenManager.new src = .ok m → ∀ (trace : List (System × Action)) (s : System),
      PoolRun env m trace s → KeysHeld env s.manager := by
  intro claim
  obtain ⟨reached, followed, holds⟩ := (Option.any_eq_true _ _).mp oneKeyMissing_enabled
  obtain ⟨m, started, run, -⟩ := fromStart_run followed
  obtain ⟨e, mem, fields⟩ := List.any_eq_true.mp holds
  rw [Bool.and_eq_true, Bool.not_eq_true'] at fields
  have has := (claim plainEnv oneKeyMissing m started _ _ run).entries e mem fields.1
  rw [has] at fields
  cases fields.2

theorem oneKeyMissing_switched :
    ((fromStart oneKeyMissing [.operation (.setDisabled 2 true),
      .operation (.setDisabled 2 false)]).any fun reached =>
      reached.1.all fun p => (p.1.manager.find 2).all fun e => !lacksKey e.credentials) = true := by
  decide +kernel

theorem keys_held_oneKeyMissing : ∃ m trace s, PoolRun plainEnv m trace s ∧
    KeysHeld plainEnv s.manager := by
  obtain ⟨reached, followed, keyed⟩ := (Option.any_eq_true _ _).mp oneKeyMissing_switched
  obtain ⟨m, started, run, each⟩ := fromStart_run followed
  refine ⟨m, _, _, run, keys_held plainEnv oneKeyMissing m started _ _ run fun p mem => ?_⟩
  have has (e : CredentialEntry) (found : p.1.manager.find 2 = some e) :
      lacksKey e.credentials = false := by
    have test := List.all_eq_true.mp keyed p mem
    rw [found, Option.all_some, Bool.not_eq_true'] at test
    exact test
  rcases List.mem_cons.mp (each p mem) with off | on
  · rw [off]
    trivial
  · rw [List.mem_singleton.mp on]
    exact has

end KiroRs.Pool.KeyChecks
