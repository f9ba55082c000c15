/- Path: KiroRs/Pool/Invariants
   source: src/kiro/token_manager.rs
   digest: What holds of every entry of the pool over all of its operations. -/

import Mathlib.Data.List.Nodup
import KiroRs.Pool.Startup

set_option autoImplicit false
set_option relaxedAutoImplicit false

namespace KiroRs.Pool.Invariants

open KiroRs.Lib.Traces
open KiroRs.Pool.Credentials
open KiroRs.Pool.Manager
open KiroRs.Pool.Manager.MultiTokenManager
open KiroRs.Pool.Tasks
open KiroRs.Pool.RefreshInterleaving
open KiroRs.Pool.Selection (plainEnv)
open KiroRs.Pool.ManualDisable (ids find_of_mem)
open KiroRs.Pool.Changes
open KiroRs.Pool.Startup

variable {env : Env} {s s' : System} {a : Action} {id : Nat}

structure Sane (e : CredentialEntry) : Prop where
  reason : e.disabled = true ↔ e.disabledReason.isSome = true
  failures : e.disabled = false → e.failureCount < maxFailuresPerCredential
  refreshes : e.disabled = false → e.refreshFailureCount < maxFailuresPerCredential
  -- self-healing leaves this counter alone
  whenFailed : e.disabledReason = some .tooManyFailures →
    e.refreshFailureCount < maxFailuresPerCredential
  identity : e.credentials.id = some e.id

theorem threshold_pos : 0 < maxFailuresPerCredential := by decide

theorem Sane.enabled_reason {e : CredentialEntry} (sane : Sane e) (enabled : e.disabled = false) :
    e.disabledReason = none := by
  cases found : e.disabledReason with
  | none => rfl
  | some r =>
    have disabled := sane.reason.mpr (by rw [found]; rfl)
    rw [enabled] at disabled
    cases disabled

/-- The copies that tasks hold, and the entries they are about to add, know their ids. -/
structure SaneSystem (s : System) : Prop where
  entries : ∀ e ∈ s.manager.entries, Sane e
  snapshots : ∀ t id c, snapshotOf (s.tasks t) = some (id, c) → c.id = some id
  pushes : ∀ t id c, s.tasks t = .addPushing id c → c.id = some id

theorem Sane.change {e e' : CredentialEntry} (sane : Sane e) (inv : SaneSystem s)
    (change : Change env s a e e') : Sane e' := by
  obtain ⟨reason, failures, refreshes, whenFailed, identity⟩ := sane
  cases change with
  | same => exact ⟨reason, failures, refreshes, whenFailed, identity⟩
  | succeeded stamp cause =>
      exact ⟨reason, fun _ => threshold_pos, fun _ => threshold_pos, fun _ => threshold_pos, identity⟩
  | failed stamp cause enabled below =>
      exact ⟨reason, fun _ => below, refreshes, whenFailed, identity⟩
  | shutDown stamp cause enabled reached =>
      exact ⟨by simp, fun on => by simp at on, fun on => by simp at on,
        fun _ => refreshes enabled, identity⟩
  | quotaExhausted stamp cause enabled =>
      exact ⟨by simp, fun on => by simp at on, fun on => by simp at on, fun r => by simp at r,
        identity⟩
  | refreshFailed stamp cause enabled below =>
      exact ⟨reason, failures, fun _ => below, fun _ => below, identity⟩
  | refreshShutDown stamp cause enabled reached =>
      exact ⟨by simp, fun on => by simp at on, fun on => by simp at on, fun r => by simp at r,
        identity⟩
  | tokenInvalid stamp cause enabled =>
      exact ⟨by simp, fun on => by simp at on, fun on => by simp at on, fun r => by simp at r,
        identity⟩
  | cooled op throttled limited total cause cools =>
      exact ⟨reason, failures, refreshes, whenFailed, identity⟩
  | uncounted id cause => exact ⟨reason, failures, refreshes, whenFailed, identity⟩
  | switchedOff cause =>
      exact ⟨by simp, fun on => by simp at on, fun on => by simp at on, fun r => by simp at r,
        identity⟩
  | switchedOn cause =>
      exact ⟨by simp, fun _ => threshold_pos, fun _ => threshold_pos, fun _ => threshold_pos, identity⟩
  | quotaMarked cause =>
      exact ⟨by simp, fun on => by simp at on, fun on => by simp at on, fun r => by simp at r,
        identity⟩
  | edited c cause same =>
      exact ⟨reason, failures, refreshes, whenFailed, same.id.trans identity⟩
  | reset cause valid =>
      exact ⟨by simp, fun _ => threshold_pos, fun _ => threshold_pos, fun _ => threshold_pos, identity⟩
  | retokened token access expires cause accepted disabled =>
      exact ⟨reason, failures, fun _ => threshold_pos, fun _ => threshold_pos, identity⟩
  | written t input purpose snapshot new cause stands answer =>
      obtain ⟨data, -, rfl⟩ := refreshToken_ok answer
      have known : snapshot.id = some e.id := inv.snapshots t e.id snapshot (by rw [stands]; rfl)
      exact ⟨reason, failures, refreshes, whenFailed, known⟩
  | forced t input snapshot new cause stands answer =>
      obtain ⟨data, -, rfl⟩ := refreshToken_ok answer
      have known : snapshot.id = some e.id := inv.snapshots t e.id snapshot (by rw [stands]; rfl)
      exact ⟨reason, failures, fun _ => threshold_pos, fun _ => threshold_pos, known⟩
  | ensured t input attempt c token cause stands =>
      exact ⟨reason, failures, fun _ => threshold_pos, fun _ => threshold_pos, identity⟩
  | healed t input attempt cause stands failed =>
      exact ⟨by simp, fun _ => threshold_pos, fun _ => whenFailed failed, fun r => by simp at r,
        identity⟩
  | reloaded t input attempt found cause stands =>
      exact ⟨by simp, fun _ => threshold_pos, fun _ => threshold_pos, fun _ => threshold_pos, identity⟩

theorem id_fillDefaultProfileArnWithRegion (c : KiroCredentials) (region : Option String) :
    (c.fillDefaultProfileArnWithRegion region).id = c.id := by
  unfold KiroCredentials.fillDefaultProfileArnWithRegion
  split_ifs <;> rfl

theorem id_addFinish (config : Config) (id : Nat) (new validated : KiroCredentials) :
    (addFinish config id new validated).id = some id :=
  id_fillDefaultProfileArnWithRegion _ _

def pushOf : Task → Option (Nat × KiroCredentials)
  | .addPushing id c => some (id, c)
  | _ => none

@[simp] theorem pushOf_tokenFailed (p : Purpose) (id : Nat) (e : RefreshError) :
    pushOf (tokenFailed p id e) = none := by
  cases p with
  | acquire attempt => cases e <;> rfl
  | usage | models | preference => rfl

@[simp] theorem pushOf_withAccessToken (p : Purpose) (id : Nat) (c : KiroCredentials) :
    pushOf (withAccessToken p id c) = none := by
  unfold withAccessToken
  cases c.accessToken with
  | none => exact pushOf_tokenFailed p id _
  | some token => cases p <;> rfl

@[simp] theorem pushOf_tokenTask (utcNow : Int) (p : Purpose) (id : Nat) (c : KiroCredentials) :
    pushOf (tokenTask env utcNow p id c) = none := by
  unfold tokenTask
  split_ifs
  · cases c.kiroApiKey with
    | none => exact pushOf_tokenFailed p id _
    | some key => cases p <;> rfl
  · rfl
  · exact pushOf_withAccessToken p id c

theorem pushOf_stepTask {t : Nat} {input : Input} {m : MultiTokenManager} {lock : Option Nat}
    {task : Task} {next : Next} {c : KiroCredentials}
    (step : stepTask env t input m lock task = some next)
    (pushing : pushOf next.task = some (id, c)) :
    next.manager = m ∧ ∃ new validated, task = .addChoosing new validated ∧
      id = nextId m.entries ∧ c = addFinish m.config id new validated := by
  cases task with
  | addChoosing new validated =>
      cases step
      cases pushing
      exact ⟨rfl, new, validated, rfl, rfl, rfl⟩
  | token p id' c' =>
      cases step
      simp at pushing
  | rereading p id' | refreshing p id' c' =>
      simp only [stepTask] at step
      repeat' split at step
      all_goals cases step
      all_goals first
        | cases pushing
        | simp at pushing
  | reportingInvalid a id' | reportingFailure a id' =>
      cases step
      dsimp only at pushing
      split_ifs at pushing <;> cases pushing
  | _ =>
      simp only [stepTask] at step
      repeat' split at step
      all_goals first
        | cases step
          cases pushing
        | cases step

theorem pushOf_call (m : MultiTokenManager) (call : Call) : pushOf (call.task m) = none := by
  cases call with
  | setUserPreferenceFor id overageStatus =>
      simp only [Call.task]
      split_ifs <;> rfl
  | _ => rfl

theorem saneSystem_step (inv : SaneSystem s) (step : s.step env a = some s') : SaneSystem s' := by
  constructor
  · refine forall_entries_step step inv.entries ?_ ?_
    · exact fun e mem e' change sane => sane.change inv change
    · intro t id c stands
      exact ⟨by simp, fun _ => threshold_pos, fun _ => threshold_pos, fun r => by simp at r,
        inv.pushes t id c stands⟩
  · intro t id c holds
    rcases task_step step t with same | ⟨call, -, started⟩ | ⟨input, next, -, taken, stands, -⟩ |
      ⟨-, dropped⟩
    · rw [same] at holds
      exact inv.snapshots t id c holds
    · rw [started, snapshotOf_call] at holds
      cases holds
    · rw [stands] at holds
      obtain ⟨-, before | copied⟩ := snapshotOf_stepTask taken holds
      · exact inv.snapshots t id c before
      · obtain ⟨e, found, rfl⟩ := Option.map_eq_some_iff.mp copied
        have here : e.id = id := by simpa using List.find?_some found
        rw [(inv.entries e (List.mem_of_find?_eq_some found)).identity, here]
    · rw [dropped] at holds
      cases holds
  · intro t id c pushes
    have pushing : pushOf (s'.tasks t) = some (id, c) := by rw [pushes]; rfl
    rcases task_step step t with same | ⟨call, -, started⟩ | ⟨input, next, -, taken, stands, -⟩ |
      ⟨-, dropped⟩
    · rw [same] at pushes
      exact inv.pushes t id c pushes
    · rw [started, pushOf_call] at pushing
      cases pushing
    · rw [stands] at pushing
      obtain ⟨-, new, validated, -, -, rfl⟩ := pushOf_stepTask taken pushing
      exact id_addFinish _ id new validated
    · rw [dropped] at pushing
      cases pushing

theorem ids_of_changes {es es' : List CredentialEntry}
    (changes : List.Forall₂ (Change env s a) es es') :
    es'.map (·.id) = es.map (·.id) := by
  induction changes with
  | nil => rfl
  | cons change _ ih => rw [List.map_cons, List.map_cons, change.id_eq, ih]

theorem le_maxId {es : List CredentialEntry} {e : CredentialEntry} (mem : e ∈ es) :
    e.id ≤ maxId es := by
  have bound : ∀ (ns : List Nat) (start : Nat),
      start ≤ ns.foldl max start ∧ ∀ n ∈ ns, n ≤ ns.foldl max start := by
    intro ns
    induction ns with
    | nil => exact fun start => ⟨Nat.le_refl _, fun n mem => by cases mem⟩
    | cons n ns ih =>
      intro start
      obtain ⟨low, each⟩ := ih (max start n)
      refine ⟨Nat.le_trans (Nat.le_max_left start n) low, fun k mem => ?_⟩
      rcases List.mem_cons.mp mem with rfl | later
      · exact Nat.le_trans (Nat.le_max_right start k) low
      · exact each k later
  exact (bound _ 0).2 e.id (List.mem_map_of_mem mem)

def Numbered (s : System) : Action → Prop
  | .task t _ =>
    match s.tasks t with
    | .addChoosing _ _ => maxId s.manager.entries + 1 < 2 ^ 64
    | _ => True
  | _ => True

/-- Every operation starts when none is under way. -/
def OneAtATime (s : System) : Action → Prop
  | .start _ _ | .operation _ => ∀ t, (s.tasks t).waits = false
  | _ => True

/-- One operation at a time, and distinct ids, also of the entry that is about to be added. -/
structure Orderly (s : System) : Prop where
  lone : ∀ t t', (s.tasks t).waits = true → (s.tasks t').waits = true → t = t'
  fresh : ∀ t id c, s.tasks t = .addPushing id c → id ∉ ids s.manager
  distinct : (ids s.manager).Nodup

theorem waits_of_stepTask {t : Nat} {input : Input} {m : MultiTokenManager} {lock : Option Nat}
    {task : Task} {next : Next} (step : stepTask env t input m lock task = some next) :
    task.waits = true := by
  cases task with
  | idle | returned _ _ | done | failed => cases step
  | _ => rfl

theorem waits_step (step : s.step env a = some s') {t : Nat} (waits : (s'.tasks t).waits = true) :
    (s.tasks t).waits = true ∨ ∃ call, a = .start t call := by
  rcases task_step step t with same | ⟨call, started, -⟩ | ⟨input, next, -, taken, -, -⟩ |
    ⟨-, dropped⟩
  · rw [same] at waits
    exact .inl waits
  · exact .inr ⟨call, started⟩
  · exact .inl (waits_of_stepTask taken)
  · rw [dropped] at waits
    cases waits

theorem ids_step (step : s.step env a = some s') :
    ids s'.manager = ids s.manager ∨ (ids s'.manager).Sublist (ids s.manager) ∨
      ∃ t input id c, a = .task t input ∧ s.tasks t = .addPushing id c ∧
        ids s'.manager = ids s.manager ++ [id] := by
  rcases entries_step step with changed | ⟨id, e, -, -, -, left⟩ | ⟨t, input, id, c, rfl, stands, new⟩
  · exact .inl (ids_of_changes changed)
  · refine .inr (.inl ?_)
    unfold ids
    rw [left]
    exact List.filter_sublist.map _
  · refine .inr (.inr ⟨t, input, id, c, rfl, stands, ?_⟩)
    unfold ids
    rw [new, List.map_append]
    rfl

theorem orderly_step (inv : Orderly s) (alone : OneAtATime s a) (numbered : Numbered s a)
    (step : s.step env a = some s') : Orderly s' := by
  constructor
  · intro t t' waits waits'
    rcases waits_step step waits with before | ⟨call, rfl⟩
    · rcases waits_step step waits' with before' | ⟨call, rfl⟩
      · exact inv.lone t t' before before'
      · rw [alone t] at before
        cases before
    · rcases waits_step step waits' with before' | ⟨call', started⟩
      · rw [alone t'] at before'
        cases before'
      · cases started
        rfl
  · intro t id c pushes
    rcases task_step step t with same | ⟨call, -, started⟩ | ⟨input, next, rfl, taken, stands, m'⟩ |
      ⟨-, dropped⟩
    · rw [same] at pushes
      have absent := inv.fresh t id c pushes
      rcases ids_step step with kept | fewer | ⟨t', input, id', c', rfl, stands, -⟩
      · rw [kept]
        exact absent
      · exact fun mem => absent (fewer.subset mem)
      · have one : t = t' := inv.lone t t' (by rw [pushes]; rfl) (by rw [stands]; rfl)
        subst one
        obtain ⟨next, taken, rfl⟩ := Option.map_eq_some_iff.mp step
        rw [stands] at taken
        cases taken
        rw [← same] at stands
        dsimp only at stands
        rw [Function.update_self] at stands
        cases stands
    · have pushing := pushOf_call s.manager call
      rw [← started, pushes] at pushing
      cases pushing
    · have pushing : pushOf next.task = some (id, c) := by rw [← stands, pushes]; rfl
      obtain ⟨kept, new, validated, choosing, rfl, -⟩ := pushOf_stepTask taken pushing
      unfold Numbered at numbered
      dsimp only at numbered
      rw [choosing] at numbered
      dsimp only at numbered
      rw [m', kept]
      intro mem
      obtain ⟨e, there, same⟩ := List.mem_map.mp mem
      have bound := le_maxId there
      unfold nextId at same
      rw [Nat.mod_eq_of_lt numbered] at same
      omega
    · rw [dropped] at pushes
      cases pushes
  · rcases ids_step step with kept | fewer | ⟨t, input, id, c, -, stands, new⟩
    · rw [kept]
      exact inv.distinct
    · exact inv.distinct.sublist fewer
    · rw [new]
      refine List.nodup_append.mpr ⟨inv.distinct, List.nodup_singleton id, ?_⟩
      intro n mem k single same
      rw [List.mem_singleton.mp single] at same
      rw [same] at mem
      exact inv.fresh t id c stands mem

def enabledAt (m : MultiTokenManager) (id : Nat) : Bool := (m.find id).any (!·.disabled)

/-- What a step does to the failure count of an entry: it clears it, or counts a failure. -/
def clearsFailures (id : Nat) (step : System × Action) : Option Bool :=
  match step.2 with
  | .operation (.reportSuccess id' _) => if id' = id then some true else none
  | .operation (.reportFailure id' _) =>
    if id' = id ∧ enabledAt step.1.manager id = true then some false else none
  | _ => none

def clearsRefreshes (env : Env) (id : Nat) (step : System × Action) : Option Bool :=
  match step.2 with
  | .operation (.reportSuccess id' _) => if id' = id then some true else none
  | .operation (.updateRefreshToken id' token access expires) =>
    if id' = id ∧ (step.1.manager.updateRefreshToken env id token access expires).isOk = true then
      some true
    else none
  | .operation (.reportRefreshFailure id' _) =>
    if id' = id ∧ enabledAt step.1.manager id = true then some false else none
  | .task t input =>
    match step.1.tasks t with
    | .finishing _ id' _ _ => if id' = id then some true else none
    | .forceRefreshing id' snapshot =>
      if id' = id ∧ (refreshToken snapshot input.refresh).isOk = true then some true else none
    | .reportingFailure _ id' =>
      if id' = id ∧ enabledAt step.1.manager id = true then some false else none
    | _ => none
  | _ => none

/-- The counter was cleared since the last counted failure. -/
def Cleared (clears : Nat → System × Action → Option Bool) (id : Nat)
    (trace : List (System × Action)) : Prop :=
  trace.findSome? (clears id) = some true

/-- The entries shut down for failures stand at the threshold, unless their counter was cleared. -/
structure AtThreshold (env : Env) (trace : List (System × Action)) (s : System) : Prop where
  failures : ∀ e ∈ s.manager.entries, e.disabledReason = some .tooManyFailures →
    ¬ Cleared clearsFailures e.id trace → e.failureCount = maxFailuresPerCredential
  refreshes : ∀ e ∈ s.manager.entries, e.disabledReason = some .tooManyRefreshFailures →
    ¬ Cleared (clearsRefreshes env) e.id trace → e.refreshFailureCount = maxFailuresPerCredential

theorem enabledAt_eq (distinct : (ids s.manager).Nodup) {e : CredentialEntry}
    (mem : e ∈ s.manager.entries) : enabledAt s.manager e.id = !e.disabled := by
  unfold enabledAt
  rw [find_of_mem distinct mem]
  rfl

theorem failures_change {e e' : CredentialEntry} (sane : Sane e) (change : Change env s a e e')
    (reason : e'.disabledReason = some .tooManyFailures) :
    clearsFailures e.id (s, a) = some true ∨ e'.failureCount = maxFailuresPerCredential ∨
      e.disabledReason = some .tooManyFailures ∧ e'.failureCount = e.failureCount := by
  cases change with
  | same | cooled | uncounted | edited | retokened | written | forced | ensured =>
      exact .inr (.inr ⟨reason, rfl⟩)
  | succeeded stamp cause =>
      left
      subst cause
      exact if_pos rfl
  | shutDown stamp cause enabled reached =>
      right
      left
      have below := sane.failures enabled
      dsimp only
      omega
  | failed stamp cause enabled below | refreshFailed stamp cause enabled below =>
      rw [sane.enabled_reason enabled] at reason
      cases reason
  | _ => cases reason

theorem refreshes_change {e e' : CredentialEntry} (sane : Sane e) (change : Change env s a e e')
    (reason : e'.disabledReason = some .tooManyRefreshFailures) :
    clearsRefreshes env e.id (s, a) = some true ∨
      e'.refreshFailureCount = maxFailuresPerCredential ∨
      e.disabledReason = some .tooManyRefreshFailures ∧
        e'.refreshFailureCount = e.refreshFailureCount := by
  cases change with
  | same | cooled | uncounted | edited | written => exact .inr (.inr ⟨reason, rfl⟩)
  | succeeded stamp cause =>
      left
      subst cause
      exact if_pos rfl
  | retokened token access expires cause accepted disabled =>
      left
      subst cause
      exact if_pos ⟨rfl, accepted⟩
  | forced t input snapshot new cause stands answer =>
      left
      subst cause
      simp only [clearsRefreshes, stands, answer]
      rfl
  | ensured t input attempt c token cause stands =>
      left
      subst cause
      simp only [clearsRefreshes, stands, if_true]
  | refreshShutDown stamp cause enabled reached =>
      right
      left
      have below := sane.refreshes enabled
      dsimp only
      omega
  | failed stamp cause enabled below | refreshFailed stamp cause enabled below =>
      rw [sane.enabled_reason enabled] at reason
      cases reason
  | _ => cases reason

theorem counted_enabled (env : Env) (distinct : (ids s.manager).Nodup) {e : CredentialEntry}
    (mem : e ∈ s.manager.entries)
    (counts : clearsFailures e.id (s, a) = some false ∨
      clearsRefreshes env e.id (s, a) = some false) : e.disabled = false := by
  have enabled : enabledAt s.manager e.id = true := by
    unfold clearsFailures clearsRefreshes at counts
    dsimp only at counts
    rcases counts with counts | counts
    · split at counts
      · split_ifs at counts
        cases counts
      · split_ifs at counts with here
        exact here.2
      · cases counts
    · split at counts
      · split_ifs at counts
        cases counts
      · split_ifs at counts
        cases counts
      · split_ifs at counts with here
        exact here.2
      · split at counts
        · split_ifs at counts
          cases counts
        · split_ifs at counts
          cases counts
        · split_ifs at counts with here
          exact here.2
        · cases counts
      · cases counts
  rw [enabledAt_eq distinct mem] at enabled
  simpa using enabled

theorem atThreshold_step {trace : List (System × Action)} (inv : AtThreshold env trace s)
    (sane : SaneSystem s) (distinct : (ids s.manager).Nodup) (step : s.step env a = some s') :
    AtThreshold env ((s, a) :: trace) s' := by
  -- a counter that this step leaves alone was cleared now if and only if it was before
  have kept : ∀ {clears : Nat → System × Action → Option Bool} {e : CredentialEntry},
      clears e.id (s, a) ≠ some true → clears e.id (s, a) ≠ some false →
      ¬ Cleared clears e.id ((s, a) :: trace) → ¬ Cleared clears e.id trace := by
    intro clears e noTrue noFalse notCleared before
    apply notCleared
    unfold Cleared
    rw [List.findSome?_cons]
    cases event : clears e.id (s, a) with
    | none => exact before
    | some b =>
      cases b with
      | true => exact absurd event noTrue
      | false => exact absurd event noFalse
  have now : ∀ {clears : Nat → System × Action → Option Bool} {e : CredentialEntry},
      clears e.id (s, a) = some true → Cleared clears e.id ((s, a) :: trace) := by
    intro clears e event
    unfold Cleared
    rw [List.findSome?_cons, event]
  constructor
  · intro e' mem reason notCleared
    rcases entry_step step mem with ⟨e, before, change⟩ | ⟨t, id, c, stands, rfl⟩
    · rw [change.id_eq] at notCleared
      have sane := sane.entries e before
      rcases failures_change sane change reason with clears | reached | ⟨still, same⟩
      · exact absurd (now clears) notCleared
      · exact reached
      · rw [same]
        refine inv.failures e before still (kept (fun event => notCleared (now event)) ?_ notCleared)
        intro counts
        rw [sane.enabled_reason (counted_enabled env distinct before (.inl counts))] at still
        cases still
    · cases reason
  · intro e' mem reason notCleared
    rcases entry_step step mem with ⟨e, before, change⟩ | ⟨t, id, c, stands, rfl⟩
    · rw [change.id_eq] at notCleared
      have sane := sane.entries e before
      rcases refreshes_change sane change reason with clears | reached | ⟨still, same⟩
      · exact absurd (now clears) notCleared
      · exact reached
      · rw [same]
        refine inv.refreshes e before still
          (kept (fun event => notCleared (now event)) ?_ notCleared)
        intro counts
        rw [sane.enabled_reason (counted_enabled env distinct before (.inr counts))] at still
        cases still
    · cases reason

theorem sane_checkConfig {e : CredentialEntry} (sane : Sane e) : Sane (checkConfig e) := by
  unfold checkConfig
  split_ifs
  · exact ⟨by simp, fun on => by simp at on, fun on => by simp at on, fun r => by simp at r,
      sane.identity⟩
  · exact sane

theorem sane_startEntry (config : Config) (machineId : KiroCredentials → String)
    (p : Nat × KiroCredentials) : Sane (startEntry config machineId p) := by
  refine ⟨?_, fun _ => threshold_pos, fun _ => threshold_pos, fun _ => threshold_pos,
    id_fillDefaultProfileArnWithRegion _ _⟩
  unfold startEntry
  dsimp only
  split_ifs with disabled
  · simp [disabled]
  · simp [disabled]

theorem sane_withStats {e : CredentialEntry} (sane : Sane e)
    (stats : Lib.Dicts.Dict StatsEntry) : Sane (withStats stats e) := by
  obtain ⟨id, credentials, disabled, reason, failures, refreshes⟩ := withStats_eq stats e
  constructor
  · rw [disabled, reason]
    exact sane.reason
  · rw [disabled, failures]
    exact sane.failures
  · rw [disabled, refreshes]
    exact sane.refreshes
  · rw [reason, refreshes]
    exact sane.whenFailed
  · rw [credentials, id]
    exact sane.identity

theorem new_ok {src : Sources} {m : MultiTokenManager}
    (started : Startup.MultiTokenManager.new src = .ok m) :
    m.entries = (startEntries src).map (withStats src.stats) ∧
      ((startEntries src).map (·.id)).Nodup := by
  unfold Startup.MultiTokenManager.new at started
  dsimp only at started
  split_ifs at started with duplicates
  cases started
  exact ⟨rfl, (distinct_of_no_duplicates (not_not.mp duplicates)).1⟩

theorem sane_new {src : Sources} {m : MultiTokenManager}
    (started : Startup.MultiTokenManager.new src = .ok m) : ∀ e ∈ m.entries, Sane e := by
  intro e mem
  rw [(new_ok started).1] at mem
  obtain ⟨e₀, there, rfl⟩ := List.mem_map.mp mem
  obtain ⟨p, -, rfl⟩ := List.mem_map.mp there
  exact sane_withStats (sane_checkConfig (sane_startEntry src.config src.machineId p)) src.stats

theorem distinct_new {src : Sources} {m : MultiTokenManager}
    (started : Startup.MultiTokenManager.new src = .ok m) : (ids m).Nodup := by
  obtain ⟨entries, distinct⟩ := new_ok started
  unfold ids
  rw [entries, List.map_map]
  have same : (fun e : CredentialEntry => e.id) ∘ withStats src.stats = fun e => e.id :=
    funext fun e => (withStats_eq src.stats e).1
  rw [same]
  exact distinct

theorem reason_new {src : Sources} {m : MultiTokenManager}
    (started : Startup.MultiTokenManager.new src = .ok m) {e : CredentialEntry}
    (mem : e ∈ m.entries) :
    e.disabledReason = none ∨ e.disabledReason = some .manual ∨
      e.disabledReason = some .invalidConfig := by
  rw [(new_ok started).1] at mem
  obtain ⟨e₀, there, rfl⟩ := List.mem_map.mp mem
  obtain ⟨p, -, rfl⟩ := List.mem_map.mp there
  rw [(withStats_eq _ _).2.2.2.1]
  unfold checkConfig
  split_ifs
  · exact .inr (.inr rfl)
  · unfold startEntry
    dsimp only
    split_ifs
    · exact .inr (.inl rfl)
    · exact .inl rfl

structure PoolInvariant (env : Env) (trace : List (System × Action)) (s : System) : Prop where
  sane : SaneSystem s
  orderly : Orderly s
  threshold : AtThreshold env trace s

/-- One operation after the other, and ids that fit. -/
def InSequence (s : System) (a : Action) : Prop := OneAtATime s a ∧ Numbered s a

theorem poolInvariant_run {src : Sources} {m : MultiTokenManager}
    (started : Startup.MultiTokenManager.new src = .ok m) {trace : List (System × Action)}
    {s : System} (run : PoolRun env m trace s) (sequence : Guarded InSequence trace) :
    PoolInvariant env trace s := by
  refine run.invariant ?_ ?_ sequence
  · refine ⟨⟨sane_new started, ?_, ?_⟩, ⟨?_, ?_, distinct_new started⟩, ?_, ?_⟩
    · intro t id c holds
      cases holds
    · intro t id c pushes
      cases pushes
    · intro t t' waits
      cases waits
    · intro t id c pushes
      cases pushes
    · intro e mem reason
      rcases reason_new started mem with other | other | other <;> rw [other] at reason <;>
        cases reason
    · intro e mem reason
      rcases reason_new started mem with other | other | other <;> rw [other] at reason <;>
        cases reason
  · intro trace s a s' inv guard step
    exact ⟨saneSystem_step inv.sane step, orderly_step inv.orderly guard.1 guard.2 step,
      atThreshold_step inv.threshold inv.sane inv.orderly.distinct step⟩

/-- Over every sequence of operations on a new pool: `disabled` is set with its reason, enabled
entries are below the thresholds, an entry shut down by a report stands at its threshold until the
counter is cleared, and the ids agree with those of the credentials and are distinct. -/
theorem entries_agree (env : Env) (src : Sources) (m : MultiTokenManager)
    (started : Startup.MultiTokenManager.new src = .ok m) (trace : List (System × Action))
    (s : System) (run : PoolRun env m trace s) (sequence : Guarded InSequence trace) :
    (∀ e ∈ s.manager.entries,
      (e.disabled = true ↔ e.disabledReason.isSome = true) ∧
      (e.disabled = false → e.failureCount < maxFailuresPerCredential ∧
        e.refreshFailureCount < maxFailuresPerCredential) ∧
      (e.disabledReason = some .tooManyFailures → ¬ Cleared clearsFailures e.id trace →
        e.failureCount = maxFailuresPerCredential) ∧
      (e.disabledReason = some .tooManyRefreshFailures → ¬ Cleared (clearsRefreshes env) e.id trace →
        e.refreshFailureCount = maxFailuresPerCredential) ∧
      e.credentials.id = some e.id) ∧
    (ids s.manager).Nodup := by
  obtain ⟨sane, orderly, threshold⟩ := poolInvariant_run started run sequence
  refine ⟨fun e mem => ?_, orderly.distinct⟩
  have fields := sane.entries e mem
  exact ⟨fields.reason, fun enabled => ⟨fields.failures enabled, fields.refreshes enabled⟩,
    threshold.failures e mem, threshold.refreshes e mem, fields.identity⟩

def oneToken : Sources :=
  ⟨⟨"us-east-1", none, none⟩, "priority", [oauth], fun _ => "machine", []⟩

def fromStart (src : Sources) (actions : List Action) : Option (List (System × Action) × System) :=
  (Startup.MultiTokenManager.new src).toOption.bind fun m =>
    follow (System.step plainEnv) [] (System.initial m) actions

theorem fromStart_run {src : Sources} {actions : List Action}
    {reached : List (System × Action) × System} (followed : fromStart src actions = some reached) :
    ∃ m, Startup.MultiTokenManager.new src = .ok m ∧ PoolRun plainEnv m reached.1 reached.2 ∧
      ∀ p ∈ reached.1, p.2 ∈ actions := by
  obtain ⟨m, started, followed⟩ := Option.bind_eq_some_iff.mp followed
  obtain ⟨run, each⟩ := follow_run .nil followed
  refine ⟨m, ?_, run, fun p mem => ?_⟩
  · cases new : Startup.MultiTokenManager.new src with
    | error e =>
      rw [new] at started
      cases started
    | ok m' =>
      rw [new] at started
      cases started
      rfl
  · rcases each p mem with never | taken
    · cases never
    · exact taken

theorem inSequence_operations {m : MultiTokenManager} {trace : List (System × Action)}
    {s : System} (run : PoolRun env m trace s) (only : ∀ p ∈ trace, ∃ op, p.2 = .operation op) :
    Guarded InSequence trace ∧ ∀ t, s.tasks t = .idle := by
  induction run with
  | nil =>
    refine ⟨?_, fun t => rfl⟩
    intro p mem
    cases mem
  | cons run taken ih =>
    obtain ⟨before, idle⟩ := ih fun p mem => only p (List.mem_cons_of_mem _ mem)
    obtain ⟨op, same⟩ := only _ List.mem_cons_self
    dsimp only at same
    subst same
    cases taken
    refine ⟨?_, idle⟩
    intro p mem
    rcases List.mem_cons.mp mem with rfl | earlier
    · refine ⟨fun t => ?_, trivial⟩
      rw [idle t]
      rfl
    · exact before p earlier

def newToken100 : String := String.ofList (List.replicate 100 'n')

/-- Three failed refreshes shut the entry down, and the administrator gives it a new token. -/
def retokened : List Action :=
  [.operation (.reportRefreshFailure 1 ""), .operation (.reportRefreshFailure 1 ""),
    .operation (.reportRefreshFailure 1 ""),
    .operation (.updateRefreshToken 1 newToken100 none none)]

theorem retokened_run :
    ((fromStart oneToken retokened).any fun reached =>
      reached.2.manager.entries.any fun e =>
        e.disabledReason == some .tooManyRefreshFailures && e.refreshFailureCount == 0) = true := by
  decide +kernel

theorem operations_retokened : ∀ a ∈ retokened, ∃ op, a = .operation op := by
  intro a mem
  unfold retokened at mem
  simp only [List.mem_cons, List.not_mem_nil, or_false] at mem
  rcases mem with rfl | rfl | rfl | rfl <;> exact ⟨_, rfl⟩

/-- The entry is still shut down for its failed refreshes, and their count is zero. -/
theorem newToken_clears_count : ¬ ∀ (env : Env) (src : Sources) (m : MultiTokenManager),
    Startup.MultiTokenManager.new src = .ok m → ∀ (trace : List (System × Action)) (s : System),
      PoolRun env m trace s → Guarded InSequence trace → ∀ e ∈ s.manager.entries,
        e.disabledReason = some .tooManyRefreshFailures →
          e.refreshFailureCount = maxFailuresPerCredential := by
  intro claim
  obtain ⟨reached, followed, holds⟩ := (Option.any_eq_true _ _).mp retokened_run
  obtain ⟨m, started, run, each⟩ := fromStart_run followed
  obtain ⟨e, mem, fields⟩ := List.any_eq_true.mp holds
  simp only [Bool.and_eq_true, beq_iff_eq] at fields
  have sequence := (inSequence_operations run fun p mem => operations_retokened _ (each p mem)).1
  have count := claim plainEnv oneToken m started _ _ run sequence e mem fields.1
  rw [fields.2] at count
  cases count

def retokenedEarly : List Action :=
  [.operation (.reportRefreshFailure 1 ""), .operation (.reportRefreshFailure 1 ""),
    .operation (.updateRefreshToken 1 newToken100 none none),
    .operation (.reportRefreshFailure 1 ""), .operation (.reportRefreshFailure 1 ""),
    .operation (.reportRefreshFailure 1 "")]

theorem retokenedEarly_run :
    ((fromStart oneToken retokenedEarly).any fun reached =>
      reached.2.manager.entries.any fun e =>
        e.disabledReason == some .tooManyRefreshFailures &&
          decide (reached.1.findSome? (clearsRefreshes plainEnv e.id) = some false)) = true := by
  decide +kernel

theorem operations_retokenedEarly : ∀ a ∈ retokenedEarly, ∃ op, a = .operation op := by
  intro a mem
  unfold retokenedEarly at mem
  simp only [List.mem_cons, List.not_mem_nil, or_false] at mem
  rcases mem with rfl | rfl | rfl | rfl | rfl | rfl <;> exact ⟨_, rfl⟩

/-- The entry is shut down, and its count stands at the threshold. -/
theorem entries_agree_retokenedEarly : ∃ s, (∃ m trace, PoolRun plainEnv m trace s) ∧
    (∃ e ∈ s.manager.entries, e.disabled = true ∧
      e.disabledReason = some .tooManyRefreshFailures ∧
      e.refreshFailureCount = maxFailuresPerCredential ∧ e.credentials.id = some e.id) ∧
    (ids s.manager).Nodup := by
  obtain ⟨reached, followed, holds⟩ := (Option.any_eq_true _ _).mp retokenedEarly_run
  obtain ⟨m, started, run, each⟩ := fromStart_run followed
  have only : ∀ p ∈ reached.1, ∃ op, p.2 = .operation op :=
    fun p mem => operations_retokenedEarly _ (each p mem)
  obtain ⟨entries, distinct⟩ := entries_agree plainEnv oneToken m started reached.1 reached.2 run
    (inSequence_operations run only).1
  obtain ⟨e, mem, fields⟩ := List.any_eq_true.mp holds
  simp only [Bool.and_eq_true, beq_iff_eq, decide_eq_true_eq] at fields
  obtain ⟨reason, last⟩ := fields
  obtain ⟨disabled, -, -, counted, named⟩ := entries e mem
  refine ⟨reached.2, ⟨m, _, run⟩, ⟨e, mem, ?_, reason, counted reason ?_, named⟩, distinct⟩
  · rw [disabled, reason]
    rfl
  · unfold Cleared
    rw [last]
    decide

end KiroRs.Pool.Invariants
