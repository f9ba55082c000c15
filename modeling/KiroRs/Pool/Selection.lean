/- Path: KiroRs/Pool/Selection
   source: src/kiro/token_manager.rs
   digest: Every context that is handed out names the entry its task picked last, and when that
   entry was eligible as it was picked. -/

import KiroRs.Pool.Tasks

set_option autoImplicit false
set_option relaxedAutoImplicit false

namespace KiroRs.Pool.Selection

open KiroRs.Lib.Text
open KiroRs.Lib.Traces
open KiroRs.Pool.Credentials
open KiroRs.Pool.Manager
open KiroRs.Pool.Manager.MultiTokenManager
open KiroRs.Pool.Tasks

/-- An entry may serve a request for the model at the given time. -/
structure Eligible (env : Env) (now : Nat) (model : Option String) (e : CredentialEntry) :
    Prop where
  enabled : e.disabled = false
  not_throttled : ∀ deadline, e.throttledUntil = some deadline → deadline ≤ now
  not_rate_limited : ∀ deadline, e.rateLimitedUntil = some deadline → deadline ≤ now
  serves : isOpus env model → e.credentials.supportsOpus env

variable {env : Env} {m : MultiTokenManager} {now : Nat} {model : Option String}
  {e : CredentialEntry}

theorem coolingDown_eq_false {deadline : Option Nat} :
    coolingDown deadline now = false ↔ ∀ d, deadline = some d → d ≤ now := by
  cases deadline with
  | none => simp [coolingDown]
  | some d => simp [coolingDown]

theorem selectable_iff : e.selectable env now model = true ↔ Eligible env now model e := by
  unfold CredentialEntry.selectable
  constructor
  · intro h
    split_ifs at h with disabled throttled limited serves
    refine ⟨by simpa using disabled, ?_, ?_, ?_⟩
    · exact coolingDown_eq_false.mp (by simpa using throttled)
    · exact coolingDown_eq_false.mp (by simpa using limited)
    · intro opus
      simpa [opus] using serves
  · rintro ⟨enabled, throttled, limited, serves⟩
    have throttled := coolingDown_eq_false.mpr throttled
    have limited := coolingDown_eq_false.mpr limited
    have fits : ¬ (isOpus env model && !e.credentials.supportsOpus env) = true := by
      cases opus : isOpus env model with
      | false => simp
      | true => simp [serves opus]
    simp [enabled, throttled, limited, fits]

theorem eligible_of_selectNextCredential (h : m.selectNextCredential env now model = some e) :
    e ∈ m.entries ∧ Eligible env now model e := by
  have mem : e ∈ m.entries.filter (·.selectable env now model) := by
    unfold selectNextCredential at h
    simp only at h
    split_ifs at h
    · exact List.argmin_mem h
    · exact List.argmin_mem h
  obtain ⟨here, fits⟩ := List.mem_filter.mp mem
  exact ⟨here, selectable_iff.mp fits⟩

theorem selectNextCredential_eq_none : m.selectNextCredential env now model = none ↔
    ∀ e ∈ m.entries, ¬ Eligible env now model e := by
  have none_left : m.entries.filter (·.selectable env now model) = [] ↔
      ∀ e ∈ m.entries, ¬ Eligible env now model e := by
    rw [List.filter_eq_nil_iff]
    exact forall₂_congr fun e _ => not_congr selectable_iff
  rw [← none_left]
  unfold selectNextCredential
  dsimp only
  split_ifs
  · exact List.argmin_eq_none
  · exact List.argmin_eq_none

theorem eligible_of_currentHit (env : Env) (model : Option String)
    (h : m.currentHit now = some e) :
    e ∈ m.entries ∧
      (Eligible env now model e ↔ (isOpus env model → e.credentials.supportsOpus env)) := by
  have test := List.find?_some h
  simp only [Bool.and_eq_true, Bool.not_eq_true', beq_iff_eq] at test
  obtain ⟨⟨⟨_, enabled⟩, throttled⟩, limited⟩ := test
  refine ⟨List.mem_of_find?_eq_some h, fun eligible => eligible.serves, fun serves => ?_⟩
  exact ⟨enabled, coolingDown_eq_false.mp throttled, coolingDown_eq_false.mp limited, serves⟩

/-- The entry a step of a task picks, if the task stands where one is picked. -/
def pickedEntry (env : Env) (m : MultiTokenManager) (now : Nat) : Task → Option CredentialEntry
  | .stickyCheck _ => m.currentHit now
  | .selecting a | .reselecting a => m.selectNextCredential env now a.model
  | _ => none

structure Pick where
  manager : MultiTokenManager
  now : Nat
  entry : CredentialEntry

def pickOf (env : Env) (t : Nat) (step : System × Action) : Option Pick :=
  match step.2 with
  | .task t' input =>
      if t' = t then
        (pickedEntry env step.1.manager input.now (step.1.tasks t)).map
          (⟨step.1.manager, input.now, ·⟩)
      else none
  | _ => none

def lastPick (env : Env) (t : Nat) (trace : List (System × Action)) : Option Pick :=
  trace.findSome? (pickOf env t)

def requested : Purpose → Option (Option String)
  | .acquire a => some a.model
  | _ => none

def chosen : Task → Option (Option String × Nat)
  | .switching a id _ => some (a.model, id)
  | .reading purpose id | .token purpose id _ | .lockWait purpose id | .rereading purpose id
  | .refreshing purpose id _ => (requested purpose).map (·, id)
  | .profile a id _ _ | .fetchingProfile a id _ _ | .fallbackProfile a id _ _
  | .settingProfile a id _ _ _ | .finishing a id _ _ => some (a.model, id)
  | .recovering a id | .reloading a id _ | .reportingInvalid a id | .reportingFailure a id =>
      some (a.model, id)
  | .returned model context => some (model, context.id)
  | _ => none

def picking : Task → Option (Option String)
  | .stickyCheck a | .selecting a | .reselecting a => some a.model
  | _ => none

@[simp] theorem chosen_tokenFailed (p : Purpose) (id : Nat) (error : RefreshError) :
    chosen (tokenFailed p id error) = (requested p).map (·, id) := by
  cases p with
  | acquire a => cases error <;> rfl
  | usage | models | preference => rfl

@[simp] theorem chosen_withAccessToken (p : Purpose) (id : Nat) (c : KiroCredentials) :
    chosen (withAccessToken p id c) = (requested p).map (·, id) := by
  unfold withAccessToken
  cases c.accessToken with
  | none => exact chosen_tokenFailed p id _
  | some token => cases p <;> rfl

@[simp] theorem chosen_tokenTask (utcNow : Int) (p : Purpose) (id : Nat) (c : KiroCredentials) :
    chosen (tokenTask env utcNow p id c) = (requested p).map (·, id) := by
  unfold tokenTask
  split_ifs
  · cases c.kiroApiKey with
    | none => exact chosen_tokenFailed p id _
    | some key => cases p <;> rfl
  · rfl
  · exact chosen_withAccessToken p id c

theorem chosen_step {t : Nat} {input : Input} {lock : Option Nat} {task : Task} {next : Next}
    {id : Nat} (step : stepTask env t input m lock task = some next)
    (works : chosen next.task = some (model, id)) :
    chosen task = some (model, id) ∨ picking task = some model ∧
      ∃ e, pickedEntry env m input.now task = some e ∧ e.id = id := by
  cases task with
  | stickyCheck a =>
      cases hit : m.currentHit input.now with
      | none => simp [stepTask, hit] at step; subst step; cases works
      | some e =>
          simp only [stepTask, hit, Option.some.injEq] at step
          subst step
          cases works
          exact Or.inr ⟨rfl, e, hit, rfl⟩
  | selecting a | reselecting a =>
      cases hit : m.selectNextCredential env input.now a.model with
      | none => simp [stepTask, hit] at step; subst step; cases works
      | some e =>
          simp only [stepTask, hit, Option.some.injEq] at step
          subst step
          cases works
          exact Or.inr ⟨rfl, e, hit, rfl⟩
  | reading p id' | token p id' c | lockWait p id' | rereading p id' | refreshing p id' c =>
      left
      change (requested p).map (·, id') = some (model, id)
      simp only [stepTask] at step
      repeat' split at step
      all_goals cases step
      all_goals first
        | exact works
        | cases works
        | simpa only [chosen_tokenFailed, chosen_withAccessToken, chosen_tokenTask] using works
  | _ =>
      left
      simp only [stepTask] at step
      repeat' split at step
      all_goals cases step
      all_goals first
        | exact works
        | cases works

private theorem pickedEntry_of_chosen {task : Task} {p : Option String × Nat}
    (h : chosen task = some p) : pickedEntry env m now task = none := by
  cases task <;> first | rfl | cases h

theorem eligible_of_picked {task : Task} (stands : picking task = some model)
    (picked : pickedEntry env m now task = some e)
    (serves : ∀ a, task = .stickyCheck a → isOpus env a.model → e.credentials.supportsOpus env) :
    e ∈ m.entries ∧ Eligible env now model e := by
  cases task with
  | stickyCheck a =>
      cases stands
      obtain ⟨here, iff⟩ := eligible_of_currentHit env a.model picked
      exact ⟨here, iff.mpr (serves a rfl)⟩
  | selecting a | reselecting a =>
      cases stands
      exact eligible_of_selectNextCredential picked
  | _ => cases stands

/-- The fast path is not taken to an entry that lacks the support an opus request needs. -/
def StickyServes (env : Env) (s : System) (a : Action) : Prop :=
  ∀ t input attempt e, a = .task t input → s.tasks t = .stickyCheck attempt →
    s.manager.currentHit input.now = some e → isOpus env attempt.model →
      e.credentials.supportsOpus env

/-- The entry a task picked last was in the pool and eligible for the model as it was picked. -/
def PickedEligible (env : Env) (t : Nat) (trace : List (System × Action))
    (model : Option String) (id : Nat) : Prop :=
  ∃ pick, lastPick env t trace = some pick ∧ pick.entry ∈ pick.manager.entries ∧
    pick.entry.id = id ∧ Eligible env pick.now model pick.entry

/-- The invariant of the runs: whatever entry a request works with, it picked as eligible. -/
def WorksWithPicked (env : Env) (trace : List (System × Action)) (s : System) : Prop :=
  ∀ t model id, chosen (s.tasks t) = some (model, id) → PickedEligible env t trace model id

private theorem PickedEligible.skip {t id : Nat} {trace : List (System × Action)}
    {step : System × Action} (none : pickOf env t step = none)
    (h : PickedEligible env t trace model id) : PickedEligible env t (step :: trace) model id := by
  obtain ⟨pick, last, rest⟩ := h
  refine ⟨pick, ?_, rest⟩
  rw [lastPick, List.findSome?_cons, none]
  exact last

private theorem chosen_call (m : MultiTokenManager) (call : Call) :
    chosen (call.task m) = none := by
  cases call with
  | setUserPreferenceFor id overageStatus =>
      simp only [Call.task]
      split_ifs
      · rfl
      · rfl
  | _ => rfl

theorem worksWithPicked_step {trace : List (System × Action)} {s s' : System} {a : Action}
    (inv : WorksWithPicked env trace s) (serves : StickyServes env s a)
    (step : s.step env a = some s') : WorksWithPicked env ((s, a) :: trace) s' := by
  intro t model id works
  cases a with
  | start t' call =>
      simp only [System.step] at step
      split_ifs at step
      cases step
      dsimp only at works
      by_cases same : t = t'
      · subst same
        rw [Function.update_self, chosen_call] at works
        cases works
      · rw [Function.update_of_ne same] at works
        exact (inv t model id works).skip rfl
  | task t' input =>
      obtain ⟨next, taken, rfl⟩ := Option.map_eq_some_iff.mp step
      dsimp only at works
      by_cases same : t = t'
      · subst same
        rw [Function.update_self] at works
        rcases chosen_step taken works with before | ⟨stands, e, picked, rfl⟩
        · refine (inv t model id before).skip ?_
          simp only [pickOf, if_true, pickedEntry_of_chosen before, Option.map_none]
        · refine ⟨⟨s.manager, input.now, e⟩, ?_, ?_⟩
          · simp only [lastPick, List.findSome?_cons, pickOf, if_true, picked, Option.map_some]
          · obtain ⟨here, eligible⟩ := eligible_of_picked stands picked
              fun a stands => serves t input a e rfl stands (by rwa [stands] at picked)
            exact ⟨here, rfl, eligible⟩
      · rw [Function.update_of_ne same] at works
        refine (inv t model id works).skip ?_
        simp only [pickOf, if_neg (Ne.symm same)]
  | drop t' =>
      simp only [System.step] at step
      split_ifs at step
      cases step
      dsimp only at works
      by_cases same : t = t'
      · subst same
        rw [Function.update_self] at works
        cases works
      · rw [Function.update_of_ne same] at works
        exact (inv t model id works).skip rfl
  | operation op =>
      cases step
      exact (inv t model id works).skip rfl

theorem worksWithPicked_initial (m : MultiTokenManager) :
    WorksWithPicked env [] (System.initial m) := by
  intro t model id works
  cases works

/-- Over every run in which the fast path serves the requests it is taken for, every context
handed out names the entry its task picked last, which was eligible at that moment. -/
theorem returned_eligible (env : Env) (m : MultiTokenManager) (trace : List (System × Action))
    (s : System) (run : PoolRun env m trace s) (serves : Guarded (StickyServes env) trace)
    (t : Nat) (model : Option String) (context : CallContext)
    (returned : s.tasks t = .returned model context) :
    PickedEligible env t trace model context.id := by
  have inv := run.invariant (worksWithPicked_initial m)
    (fun _ _ _ _ inv guard step => worksWithPicked_step inv guard step) serves
  apply inv
  rw [returned]
  rfl

def plainEnv : Env := ⟨.ascii, fun _ => none, id⟩

/-- A free account and a paid one, both with an API key; the free one is current. -/
def freeAndPaid : MultiTokenManager where
  config := ⟨"us-east-1", none, none⟩
  entries :=
    [{ id := 1, credentials := { kiroApiKey := some "ksk_1", subscriptionTitle := some "KIRO FREE" } },
      { id := 2, credentials :=
          { kiroApiKey := some "ksk_2", priority := 1, subscriptionTitle := some "KIRO PRO+" } }]
  currentId := 1
  loadBalancingMode := "priority"
  enterpriseProfileFetchAttempted := []

/-- In priority mode an opus request is given the current free account, though a paid account is
there. -/
theorem sticky_ignores_opus : ∃ trace s context,
    PoolRun plainEnv freeAndPaid trace s ∧
      s.tasks 0 = .returned (some "claude-opus-4") context ∧
      ¬ PickedEligible plainEnv 0 trace (some "claude-opus-4") context.id := by
  refine ⟨_, _, _, .cons (a := .task 0 {}) (.cons (a := .task 0 {}) (.cons (a := .task 0 {})
    (.cons (a := .start 0 (.acquireContext (some "claude-opus-4"))) .nil rfl) rfl) rfl) rfl,
    rfl, ?_⟩
  rintro ⟨pick, last, _, _, eligible⟩
  cases last
  exact absurd (eligible.serves (by decide +kernel)) (by decide +kernel)

def mixedAccounts : MultiTokenManager where
  config := ⟨"us-east-1", none, none⟩
  entries :=
    [{ id := 1, credentials := { kiroApiKey := some "ksk_1" }, disabled := true,
       disabledReason := some .manual },
      { id := 2, credentials := { kiroApiKey := some "ksk_2", priority := 1 },
        throttledUntil := some 60000 },
      { id := 3, credentials :=
          { kiroApiKey := some "ksk_3", priority := 2, subscriptionTitle := some "KIRO FREE" } },
      { id := 4, credentials :=
          { kiroApiKey := some "ksk_4", priority := 3, subscriptionTitle := some "KIRO PRO+" } }]
  currentId := 1
  loadBalancingMode := "priority"
  enterpriseProfileFetchAttempted := []

def opusActions : List Action :=
  .start 0 (.acquireContext (some "claude-opus-4")) :: List.replicate 5 (.task 0 {})

theorem returned_eligible_mixed : ∃ trace s context,
    PoolRun plainEnv mixedAccounts trace s ∧
      s.tasks 0 = .returned (some "claude-opus-4") context ∧ context.id = 4 ∧
      PickedEligible plainEnv 0 trace (some "claude-opus-4") context.id := by
  have found : ((follow (System.step plainEnv) [] (System.initial mixedAccounts)
      opusActions).any fun reached =>
        reached.1.all (fun p => match p.1.tasks 0 with
          | .stickyCheck _ => (p.1.manager.currentHit 0).isNone
          | _ => true) &&
          match reached.2.tasks 0 with
          | .returned model context => model == some "claude-opus-4" && context.id == 4
          | _ => false) = true := by
    decide +kernel
  obtain ⟨reached, followed, holds⟩ := (Option.any_eq_true _ _).mp found
  obtain ⟨run, taken⟩ := follow_run .nil followed
  rw [Bool.and_eq_true, List.all_eq_true] at holds
  obtain ⟨away, returned⟩ := holds
  split at returned
  · next model context here =>
    rw [Bool.and_eq_true, beq_iff_eq, beq_iff_eq] at returned
    obtain ⟨rfl, last⟩ := returned
    refine ⟨_, _, context, run, here, last, returned_eligible plainEnv mixedAccounts _ _ run ?_ 0 _ _
      here⟩
    intro p mem t input attempt e action stands hit
    have only : .task t input = Action.task 0 {} := by
      rcases taken p mem with never | given
      · cases never
      · rw [action] at given
        exact (List.mem_cons.mp given).elim nofun List.eq_of_mem_replicate
    cases only
    have none := away p mem
    rw [stands, hit] at none
    cases none
  · cases returned

end KiroRs.Pool.Selection
