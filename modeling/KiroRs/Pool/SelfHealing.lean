/- Path: KiroRs/Pool/SelfHealing
   source: src/kiro/token_manager.rs
   digest: When a call that found no credential enables those again that were shut down for their
   failures. -/

import KiroRs.Pool.Invariants

set_option autoImplicit false
set_option relaxedAutoImplicit false

namespace KiroRs.Pool.SelfHealing

open KiroRs.Lib.Traces
open KiroRs.Pool.Credentials
open KiroRs.Pool.Manager
open KiroRs.Pool.Manager.MultiTokenManager
open KiroRs.Pool.Tasks
open KiroRs.Pool.Selection (plainEnv Eligible selectable_iff selectNextCredential_eq_none)
open KiroRs.Pool.Changes
open KiroRs.Pool.Startup

def AllDisabled (m : MultiTokenManager) : Prop := ∀ e ∈ m.entries, e.disabled = true

instance (m : MultiTokenManager) : Decidable (AllDisabled m) :=
  inferInstanceAs (Decidable (∀ e ∈ m.entries, e.disabled = true))

def enabledCount (m : MultiTokenManager) : Nat := m.entries.countP (!·.disabled)

def Enables (s : System) : Action → Prop
  | .operation (.setDisabled _ disabled) => disabled = false
  | .operation (.resetAndEnable _) => True
  | .task t _ =>
      match s.tasks t with
      | .healing _ => s.manager.canHeal = true
      | .reloading _ _ _ | .addPushing _ _ => True
      | _ => False
  | _ => False

/-- The step shuts an entry down for its failures, and leaves another enabled. -/
def ShutsOneDown (s : System) : Action → Prop
  | .operation (.reportFailure id _) =>
      (∃ e ∈ s.manager.entries, e.id = id ∧ e.disabled = false ∧
        maxFailuresPerCredential ≤ e.failureCount + 1) ∧ 1 < enabledCount s.manager
  | _ => False

/-- While an entry is shut down for its failures and another is enabled, a selection is made only
where one of the enabled is in no cooldown and serves the model; between a selection that found
nothing and its healing no other step enables an entry that is down or shuts one of several down;
and only an enabled entry is reloaded from the file. -/
structure Total (env : Env) (s : System) (a : Action) : Prop where
  selects : ∀ t input attempt, a = .task t input → s.tasks t = .selecting attempt →
    (∃ e ∈ s.manager.entries, e.disabled = true ∧ e.disabledReason = some .tooManyFailures) →
    (∃ e ∈ s.manager.entries, e.disabled = false) →
    ∃ e ∈ s.manager.entries, Eligible env input.now attempt.model e
  between : ∀ t attempt, s.tasks t = .healing attempt → (∀ input, a ≠ .task t input) →
    (s.manager.canHeal = true → ¬ Enables s a) ∧ ¬ ShutsOneDown s a
  reloads : ∀ t input attempt id found, a = .task t input →
    s.tasks t = .reloading attempt id found → ∀ e ∈ s.manager.entries, e.id = id →
      e.disabled = false

variable {env : Env} {s s' : System} {a : Action}

theorem canHeal_iff {m : MultiTokenManager} : m.canHeal = true ↔
    ∃ e ∈ m.entries, e.disabled = true ∧ e.disabledReason = some .tooManyFailures := by
  unfold canHeal
  simp only [List.any_eq_true, Bool.and_eq_true, beq_iff_eq]

theorem disabled_change {e e' : CredentialEntry} (change : Change env s a e e')
    (quiet : ¬ Enables s a) (mem : e ∈ s.manager.entries) (down : e.disabled = true) :
    e'.disabled = true := by
  cases change with
  | same | succeeded | failed | refreshFailed | cooled | uncounted | edited | retokened | written
  | forced | ensured => exact down
  | shutDown | quotaExhausted | refreshShutDown | tokenInvalid | switchedOff | quotaMarked => rfl
  | switchedOn cause =>
    subst cause
    exact absurd rfl quiet
  | reset cause =>
    subst cause
    exact absurd trivial quiet
  | healed t input attempt cause stands failures =>
    subst cause
    have heals : s.manager.canHeal = true := canHeal_iff.mpr ⟨e, mem, down, failures⟩
    refine absurd ?_ quiet
    rw [Enables, stands]
    exact heals
  | reloaded t input attempt found cause stands =>
    subst cause
    refine absurd ?_ quiet
    rw [Enables, stands]
    trivial

theorem failures_change {e e' : CredentialEntry} (change : Change env s a e e')
    (other : ¬ (e.disabled = true ∧ e.disabledReason = some .tooManyFailures))
    (down : e'.disabled = true) (failed : e'.disabledReason = some .tooManyFailures) :
    e.disabled = false ∧ ∃ stamp, a = .operation (.reportFailure e.id stamp) ∧
      maxFailuresPerCredential ≤ e.failureCount + 1 := by
  cases change with
  | shutDown stamp cause enabled reached => exact ⟨enabled, stamp, cause, reached⟩
  | same | succeeded | failed | refreshFailed | cooled | uncounted | edited | retokened | written
  | forced | ensured => exact absurd ⟨down, failed⟩ other
  | quotaExhausted | refreshShutDown | tokenInvalid | switchedOff | quotaMarked | switchedOn | reset
  | healed | reloaded => cases failed

theorem countP_enabled_lt {R : CredentialEntry → CredentialEntry → Prop}
    {es es' : List CredentialEntry} (each : List.Forall₂ R es es')
    (quiet : ∀ e e', R e e' → e.disabled = true → e'.disabled = true) {e' : CredentialEntry}
    (mem : e' ∈ es') (down : e'.disabled = true) (was : ∀ e ∈ es, R e e' → e.disabled = false) :
    es'.countP (!·.disabled) < es.countP (!·.disabled) := by
  have at_most : ∀ {es es' : List CredentialEntry}, List.Forall₂ R es es' →
      es'.countP (!·.disabled) ≤ es.countP (!·.disabled) := by
    intro es es' each
    induction each with
    | nil => exact le_rfl
    | @cons e e' es es' changed _ ih =>
      rw [List.countP_cons, List.countP_cons]
      cases before : e.disabled with
      | true =>
        rw [quiet e e' changed before]
        exact ih
      | false =>
        cases e'.disabled with
        | true => exact ih.trans (Nat.le_succ _)
        | false => exact Nat.succ_le_succ ih
  induction each with
  | nil => cases mem
  | @cons e e₁ es es' changed rest ih =>
    rw [List.countP_cons, List.countP_cons]
    rcases List.mem_cons.mp mem with rfl | later
    · rw [was e List.mem_cons_self changed, down]
      exact Nat.lt_succ_of_le (at_most rest)
    · have fewer := ih later fun e mem => was e (List.mem_cons_of_mem _ mem)
      cases before : e.disabled with
      | true =>
        rw [quiet e e₁ changed before]
        exact fewer
      | false =>
        cases e₁.disabled with
        | true => exact fewer.trans (Nat.lt_succ_self _)
        | false => exact Nat.succ_lt_succ fewer

theorem allDisabled_step (step : s.step env a = some s')
    (down : s.manager.canHeal = true → AllDisabled s.manager)
    (quiet : s.manager.canHeal = true → ¬ Enables s a) (unshut : ¬ ShutsOneDown s a) :
    s'.manager.canHeal = true → AllDisabled s'.manager := by
  intro heals
  by_cases before : s.manager.canHeal = true
  · intro e' mem
    rcases entries_step step with changes | ⟨id, e, -, -, -, left⟩ |
      ⟨t, input, id, c, rfl, stands, new⟩
    · obtain ⟨e, mem, change⟩ := exists_of_forall₂ changes mem
      exact disabled_change change (quiet before) mem (down before e mem)
    · rw [left] at mem
      exact down before e' (List.mem_of_mem_filter mem)
    · refine absurd ?_ (quiet before)
      rw [Enables, stands]
      trivial
  · obtain ⟨e', mem, off, failed⟩ := canHeal_iff.mp heals
    have unhealed : ∀ e ∈ s.manager.entries,
        ¬ (e.disabled = true ∧ e.disabledReason = some .tooManyFailures) :=
      fun e mem both => before (canHeal_iff.mpr ⟨e, mem, both⟩)
    rcases entries_step step with changes | ⟨id, e, -, -, -, left⟩ |
      ⟨t, input, id, c, rfl, stands, new⟩
    · obtain ⟨e, listed, change⟩ := exists_of_forall₂ changes mem
      obtain ⟨enabled, stamp, rfl, reached⟩ := failures_change change (unhealed e listed) off failed
      have single : enabledCount s.manager ≤ 1 := by
        by_contra several
        exact unshut ⟨⟨e, listed, rfl, enabled, reached⟩, Nat.lt_of_not_le several⟩
      have held : ∀ e ∈ s.manager.entries, e ∈ s.manager.entries := fun _ mem => mem
      have fewer : enabledCount s'.manager < enabledCount s.manager := by
        refine countP_enabled_lt ((List.forall₂_and_left _ _).mpr ⟨held, changes⟩) ?_ mem off ?_
        · intro e₁ e₂ both was
          exact disabled_change both.2 not_false both.1 was
        · intro e₁ mem₁ both
          exact (failures_change both.2 (unhealed e₁ mem₁) off failed).1
      have none : enabledCount s'.manager = 0 := by omega
      intro e₂ mem₂
      have down := List.countP_eq_zero.mp none e₂ mem₂
      simpa using down
    · rw [left] at mem
      exact absurd ⟨off, failed⟩ (unhealed e' (List.mem_of_mem_filter mem))
    · rw [new] at mem
      rcases List.mem_append.mp mem with old | added
      · exact absurd ⟨off, failed⟩ (unhealed e' old)
      · rw [List.mem_singleton.mp added] at off
        cases off

/-- A task that has found no credential heals a pool that is down as a whole, or none. -/
def DownWhenHealing (s : System) : Prop :=
  ∀ t attempt, s.tasks t = .healing attempt → s.manager.canHeal = true → AllDisabled s.manager

def healsNext : Task → Option Attempt
  | .healing attempt => some attempt
  | _ => none

@[simp] theorem healsNext_tokenFailed (p : Purpose) (id : Nat) (e : RefreshError) :
    healsNext (tokenFailed p id e) = none := by
  cases p with
  | acquire attempt => cases e <;> rfl
  | usage | models | preference => rfl

@[simp] theorem healsNext_withAccessToken (p : Purpose) (id : Nat) (c : KiroCredentials) :
    healsNext (withAccessToken p id c) = none := by
  unfold withAccessToken
  cases c.accessToken with
  | none => exact healsNext_tokenFailed p id _
  | some token => cases p <;> rfl

@[simp] theorem healsNext_tokenTask (utcNow : Int) (p : Purpose) (id : Nat) (c : KiroCredentials) :
    healsNext (tokenTask env utcNow p id c) = none := by
  unfold tokenTask
  split_ifs
  · cases c.kiroApiKey with
    | none => exact healsNext_tokenFailed p id _
    | some key => cases p <;> rfl
  · rfl
  · exact healsNext_withAccessToken p id c

theorem healsNext_stepTask {t : Nat} {input : Input} {m : MultiTokenManager} {lock : Option Nat}
    {task : Task} {next : Next} {attempt : Attempt}
    (step : stepTask env t input m lock task = some next)
    (heals : healsNext next.task = some attempt) :
    task = .selecting attempt ∧ m.selectNextCredential env input.now attempt.model = none ∧
      next.manager = m := by
  cases task with
  | selecting a =>
    simp only [stepTask] at step
    split at step
    · cases step
      cases heals
    · rename_i nothing
      cases step
      cases heals
      exact ⟨rfl, nothing, rfl⟩
  | token p id c =>
    cases step
    simp at heals
  | rereading p id | refreshing p id c =>
    simp only [stepTask] at step
    repeat' split at step
    all_goals cases step
    all_goals first
      | cases heals
      | simp at heals
  | reportingInvalid a id | reportingFailure a id =>
    cases step
    dsimp only at heals
    split_ifs at heals <;> cases heals
  | _ =>
    simp only [stepTask] at step
    repeat' split at step
    all_goals first
      | cases step
        cases heals
      | cases step

theorem healsNext_call (m : MultiTokenManager) (call : Call) : healsNext (call.task m) = none := by
  cases call with
  | setUserPreferenceFor id overageStatus =>
    simp only [Call.task]
    split_ifs <;> rfl
  | _ => rfl

theorem downWhenHealing_step (inv : DownWhenHealing s) (total : Total env s a)
    (step : s.step env a = some s') : DownWhenHealing s' := by
  intro t attempt healing
  have heals : healsNext (s'.tasks t) = some attempt := by
    rw [healing]
    rfl
  rcases task_step step t with same | ⟨call, -, started⟩ | ⟨input, next, rfl, taken, stands, made⟩ |
    ⟨-, dropped⟩
  · have before : s.tasks t = .healing attempt := same.symm.trans healing
    have other : ∀ input, a ≠ .task t input := by
      rintro input rfl
      obtain ⟨next, taken, rfl⟩ := Option.map_eq_some_iff.mp step
      have here : next.task = .healing attempt := by
        have left := Function.update_self t next.task s.tasks
        rw [← left]
        exact healing
      rw [before] at taken
      have selecting := (healsNext_stepTask taken (by rw [here]; rfl)).1
      cases selecting
    obtain ⟨quiet, unshut⟩ := total.between t attempt before other
    exact allDisabled_step step (inv t attempt before) quiet unshut
  · rw [started, healsNext_call] at heals
    cases heals
  · rw [stands] at heals
    obtain ⟨selecting, nothing, same⟩ := healsNext_stepTask taken heals
    rw [made, same]
    intro heals e mem
    by_contra enabled
    obtain ⟨good, listed, eligible⟩ := total.selects t input attempt rfl selecting
      (canHeal_iff.mp heals) ⟨e, mem, Bool.eq_false_of_not_eq_true enabled⟩
    exact selectNextCredential_eq_none.mp nothing good listed eligible
  · rw [dropped] at heals
    cases heals

theorem downWhenHealing_run {m : MultiTokenManager} {trace : List (System × Action)}
    (run : PoolRun env m trace s) (total : Guarded (Total env) trace) : DownWhenHealing s := by
  refine run.invariant_state ?_ ?_ total
  · intro t attempt healing
    cases healing
  · exact fun s a s' inv total step => downWhenHealing_step inv total step

/-- What a step of a task may do to an entry that is disabled: it stays so, or it was shut down for
its failures and the whole pool is down. -/
def HealedAsWhole (m : MultiTokenManager) (e e' : CredentialEntry) : Prop :=
  e.disabled = true → e'.disabled = true ∧ e'.disabledReason = e.disabledReason ∨
    e.disabledReason = some .tooManyFailures ∧ AllDisabled m

/-- In every run whose steps all meet the condition, a call enables only entries that were shut down
for their failures, and only when every entry of the pool is disabled. -/
theorem heals_only_when_all_disabled (env : Env) (m : MultiTokenManager)
    (trace : List (System × Action)) (s s' : System) (t : Nat) (input : Input)
    (run : PoolRun env m trace s)
    (total : Guarded (Total env) ((s, .task t input) :: trace))
    (step : s.step env (.task t input) = some s')
    (kept : ∀ id c, s.tasks t ≠ .addPushing id c) :
    List.Forall₂ (HealedAsWhole s.manager) s.manager.entries s'.manager.entries := by
  have down := downWhenHealing_run run total.tail
  obtain ⟨next, taken, rfl⟩ := Option.map_eq_some_iff.mp step
  have changes := forall₂_stepTask (a := .task t input) (s := s) rfl rfl taken kept
  have held : ∀ e ∈ s.manager.entries, e ∈ s.manager.entries := fun _ mem => mem
  refine ((List.forall₂_and_left _ _).mpr ⟨held, changes⟩).imp fun e e' both off => ?_
  obtain ⟨mem, change⟩ := both
  cases change with
  | healed t' input' attempt cause stands failures =>
    cases cause
    exact .inr ⟨failures, down t attempt stands (canHeal_iff.mpr ⟨e, mem, off, failures⟩)⟩
  | reloaded t' input' attempt found cause stands =>
    cases cause
    have on := total.head.reloads t input attempt e.id found rfl stands e mem rfl
    rw [off] at on
    cases on
  | same | succeeded | cooled | uncounted | edited | retokened | written | forced | ensured =>
    exact .inl ⟨off, rfl⟩
  | failed stamp cause enabled | shutDown stamp cause enabled | quotaExhausted stamp cause enabled
  | refreshFailed stamp cause enabled | refreshShutDown stamp cause enabled
  | tokenInvalid stamp cause enabled =>
    rw [off] at enabled
    cases enabled
  | switchedOff cause | switchedOn cause | quotaMarked cause | reset cause => cases cause

def isReloading : Task → Bool
  | .reloading _ _ _ => true
  | _ => false

def totalCheck (env : Env) (ts : List Nat) (p : System × Action) : Bool :=
  (match p.2 with
    | .task t input =>
      !isReloading (p.1.tasks t) &&
        match p.1.tasks t with
        | .selecting attempt =>
          !p.1.manager.canHeal || decide (AllDisabled p.1.manager) ||
            p.1.manager.entries.any (·.selectable env input.now attempt.model)
        | _ => true
    | _ => true) &&
    ts.all fun t => (healsNext (p.1.tasks t)).isNone ||
      match p.2 with
      | .task t' _ => t' == t
      | _ => false

theorem total_of_check {ts : List Nat} (checked : totalCheck env ts (s, a) = true)
    (idle : ∀ t, t ∉ ts → s.tasks t = .idle) : Total env s a := by
  obtain ⟨own, others⟩ := Bool.and_eq_true_iff.mp checked
  refine ⟨?_, ?_, ?_⟩
  · rintro t input attempt rfl selecting shut ⟨e, mem, enabled⟩
    simp only [selecting, Bool.and_eq_true, Bool.or_eq_true, canHeal_iff.mpr shut, Bool.not_true,
      Bool.false_eq_true, false_or, decide_eq_true_eq, List.any_eq_true] at own
    rcases own.2 with down | ⟨good, listed, fits⟩
    · rw [down e mem] at enabled
      cases enabled
    · exact ⟨good, listed, selectable_iff.mp fits⟩
  · intro t attempt healing foreign
    have listed : t ∈ ts := by
      by_contra other
      rw [idle t other] at healing
      cases healing
    have here := List.all_eq_true.mp others t listed
    rw [healing] at here
    cases a with
    | task t' input =>
      have same : t' = t := by simpa [healsNext] using here
      exact absurd (congrArg (Action.task · input) same) (foreign input)
    | operation op | start t' call | drop t' => cases here
  · rintro t input attempt id found rfl reloading
    simp [reloading, isReloading] at own

/-- Three accounts with API keys, the third switched off by the administrator. -/
def threeKeys : MultiTokenManager where
  config := ⟨"us-east-1", none, none⟩
  entries :=
    [{ id := 1, credentials := { kiroApiKey := some "ksk_1" }, failureCount := 2 },
      { id := 2, credentials := { kiroApiKey := some "ksk_2", priority := 1 }, failureCount := 2 },
      { id := 3, credentials := { kiroApiKey := some "ksk_3" }, disabled := true,
        disabledReason := some .manual }]
  currentId := 1
  loadBalancingMode := "balanced"
  enterpriseProfileFetchAttempted := []

/-- The first account is shut down, and a request gets the second. Then the second is shut down
too, and another request comes to the healing. -/
def shutDownInTurn : List Action :=
  [.operation (.reportFailure 1 "now"), .start 1 (.acquireContext none), .task 1 {}, .task 1 {},
    .task 1 {}, .operation (.reportFailure 2 "now"), .start 0 (.acquireContext none),
    .task 1 {}, .task 0 {}, .task 0 {}]

theorem shutDownInTurn_run :
    ((follow (System.step plainEnv) [] (System.initial threeKeys) shutDownInTurn).any
      fun reached => ((reached.2, .task 0 {}) :: reached.1).all (totalCheck plainEnv [0, 1]) &&
        actsWithin [0, 1] reached.1 && decide (reached.2.tasks 0 = .healing ⟨none, 0, 3⟩) &&
        (reached.2.step plainEnv (.task 0 {})).any fun next =>
          next.manager.entries.map (·.disabled) == [false, false, true]) = true := by
  decide +kernel

theorem heals_only_when_all_disabled_three : ∃ trace s s',
    PoolRun plainEnv threeKeys trace s ∧ s.step plainEnv (.task 0 {}) = some s' ∧
      s'.manager.entries.map (·.disabled) = [false, false, true] ∧
      List.Forall₂ (HealedAsWhole s.manager) s.manager.entries s'.manager.entries := by
  obtain ⟨trace, s, run, -, holds⟩ := exists_run_of_follow shutDownInTurn_run
  simp only [Bool.and_eq_true, List.all_eq_true, decide_eq_true_eq] at holds
  obtain ⟨⟨⟨checked, within⟩, stands⟩, comesUp⟩ := holds
  obtain ⟨s', step, up⟩ := (Option.any_eq_true _ _).mp comesUp
  have total : Guarded (Total plainEnv) ((s, .task 0 {}) :: trace) := by
    intro p mem
    refine total_of_check (checked p mem) fun t other => ?_
    obtain ⟨now, earlier⟩ := idle_of_actsWithin run within other
    rcases List.mem_cons.mp mem with rfl | past
    · exact now
    · exact earlier p past
  refine ⟨trace, s, s', run, step, beq_iff_eq.mp up, ?_⟩
  refine heals_only_when_all_disabled plainEnv threeKeys trace s s' 0 {} run total step ?_
  intro id c pushing
  rw [stands] at pushing
  cases pushing

def twoKeySources : Sources :=
  ⟨⟨"us-east-1", none, none⟩, "priority",
    [{ id := some 1, kiroApiKey := some "ksk_1" },
      { id := some 2, kiroApiKey := some "ksk_2", priority := 1 }], fun _ => "machine", []⟩

def callSteps : List Action :=
  .start 0 (.acquireContext none) :: List.replicate 3 (.task 0 {})

/-- The first account is shut down for its failures, the second cools down for a minute. -/
def coolingSteps : List Action :=
  List.replicate 3 (.operation (.reportFailure 1 "")) ++
    .operation (.reportRateLimited 2 0 0 60000) :: callSteps

theorem cooling_run :
    ((Invariants.fromStart twoKeySources coolingSteps).any fun reached =>
      (healsNext (reached.2.tasks 0)).isSome &&
        reached.2.manager.entries.map (·.disabled) == [true, false] &&
          !decide (AllDisabled reached.2.manager) && (reached.2.step plainEnv (.task 0 {})).any fun next =>
            next.manager.entries.map (·.disabled) == [false, false]) = true := by
  decide +kernel

/-- The call enables the first account although the second is enabled. -/
theorem heals_for_cooldown : ¬ ∀ (env : Env) (src : Sources) (m : MultiTokenManager),
    Startup.MultiTokenManager.new src = .ok m → ∀ (trace : List (System × Action))
      (s s' : System) (t : Nat) (input : Input), PoolRun env m trace s →
      s.step env (.task t input) = some s' → (∀ id c, s.tasks t ≠ .addPushing id c) →
      List.Forall₂ (HealedAsWhole s.manager) s.manager.entries s'.manager.entries := by
  intro claim
  obtain ⟨reached, followed, holds⟩ := (Option.any_eq_true _ _).mp cooling_run
  simp only [Bool.and_eq_true, beq_iff_eq, Bool.not_eq_true', decide_eq_false_iff_not] at holds
  obtain ⟨⟨⟨heals, before⟩, partly⟩, comesUp⟩ := holds
  obtain ⟨s', step, after⟩ := (Option.any_eq_true _ _).mp comesUp
  obtain ⟨m, started, run, -⟩ := Invariants.fromStart_run followed
  have each := claim plainEnv twoKeySources m started _ _ s' 0 {} run step (by
    intro id c pushing
    rw [pushing] at heals
    cases heals)
  rw [beq_iff_eq] at after
  cases entries : reached.2.manager.entries with
  | nil =>
    rw [entries] at before
    cases before
  | cons e rest =>
    cases entries' : s'.manager.entries with
    | nil =>
      rw [entries'] at after
      cases after
    | cons e' rest' =>
      rw [entries] at before each
      rw [entries'] at after each
      rw [List.map_cons, List.cons.injEq] at before after
      obtain ⟨healed, -⟩ := List.forall₂_cons.mp each
      rcases healed before.1 with ⟨down, -⟩ | ⟨-, whole⟩
      · rw [after.1] at down
        cases down
      · exact partly whole

end KiroRs.Pool.SelfHealing
