/- Path: KiroRs/Pool/AcquireRuns
   source: src/kiro/token_manager.rs
   digest: An `acquire_context` that runs alone ends after boundedly many token attempts, and finds
   a working credential unless reloads from the file eat up its attempts. -/

import Mathlib.Algebra.BigOperators.Group.Finset.Basic
import KiroRs.Pool.Fairness
import KiroRs.Pool.RefreshInterleaving

set_option autoImplicit false
set_option relaxedAutoImplicit false

namespace KiroRs.Pool.AcquireRuns

open KiroRs.Lib.Traces
open KiroRs.Pool.Credentials
open KiroRs.Pool.Manager
open KiroRs.Pool.Manager.MultiTokenManager
open KiroRs.Pool.Tasks
open KiroRs.Pool.ManualDisable (ids ids_update mem_update)
open KiroRs.Pool.Acquire
open KiroRs.Pool.Fairness
open KiroRs.Pool.Selection (Eligible plainEnv)
open KiroRs.Pool.RefreshInterleaving (longToken)

variable {env : Env} {t : Nat} {m : MultiTokenManager} {s s' start : System}
variable {trace : List (System × Action)} {file : Option (List KiroCredentials)}

/-- Only this task makes steps, and the credentials file stays as it is. -/
def Alone (t : Nat) (file : Option (List KiroCredentials)) (_ : System) (action : Action) : Prop :=
  ∃ input, action = .task t input ∧ input.file = file

/-- The task begins an `acquire_context`, and nobody holds the refresh lock. -/
structure Begins (t : Nat) (model : Option String) (start : System) : Prop where
  free : start.refreshLock = none
  task : start.tasks t = (Call.acquireContext model).task start.manager

theorem step_alone {input : Input} (taken : System.step env s (.task t input) = some s') :
    ∃ next, stepTask env t input s.manager s.refreshLock (s.tasks t) = some next ∧
      s'.manager = next.manager ∧ s'.refreshLock = next.refreshLock ∧ s'.tasks t = next.task := by
  unfold System.step at taken
  obtain ⟨next, made, rfl⟩ := Option.map_eq_some_iff.mp taken
  exact ⟨next, made, rfl, rfl, Function.update_self ..⟩

def asked (t : Nat) (trace : List (System × Action)) : Nat :=
  (trace.map fun p => asks (p.1.tasks t)).sum

def Filed (file : Option (List KiroCredentials)) (m : MultiTokenManager) : Task → Prop
  | .reloading _ id found => reloadMatch m id file = some found
  | _ => True

/-- What holds along the run: the place is sound, and the attempts and steps so far are paid for
out of what there was at the start. -/
structure Running (t : Nat) (file : Option (List KiroCredentials)) (tokens steps : Nat)
    (trace : List (System × Action)) (s : System) : Prop where
  sound : Sound t s.refreshLock (s.tasks t)
  filed : Filed file s.manager (s.tasks t)
  tokens : asked t trace + tokensLeft (reloadable file s.manager) (s.tasks t) ≤ tokens
  steps : trace.length + cost (reloadable file s.manager) (s.tasks t) ≤ steps

theorem tokensLeft_mono {r r' : Nat} (le : r ≤ r') (task : Task) :
    tokensLeft r task ≤ tokensLeft r' task := by
  have left_le : ∀ a, left r a ≤ left r' a := fun a => Nat.add_le_add_left le _
  unfold tokensLeft
  split <;> first | exact left_le _ | exact Nat.sub_le_sub_right (left_le _) 1 | exact Nat.le_refl 0

theorem cost_mono {r r' : Nat} (le : r ≤ r') (task : Task) : cost r task ≤ cost r' task := by
  have tokens := tokensLeft_mono le task
  unfold cost
  omega

theorem filed_step {input : Input} {lock : Option Nat} {task : Task} {next : Next}
    (same : input.file = file) (taken : stepTask env t input m lock task = some next) :
    Filed file next.manager next.task := by
  unfold Filed
  split
  · next a id found loads =>
    obtain ⟨kept, news⟩ := reloading_of_step taken loads
    rw [kept, ← same]
    exact news
  · trivial

theorem reloads_eq_zero {task : Task} (other : ∀ a id found, task ≠ .reloading a id found) :
    reloads task = 0 := by
  unfold reloads
  split
  · next a id found => exact absurd rfl (other a id found)
  · rfl

theorem reloadable_step {input : Input} {lock : Option Nat} {task : Task} {next : Next}
    (sound : Sound t lock task) (filed : Filed file m task)
    (taken : stepTask env t input m lock task = some next) :
    ∃ r, r + reloads task ≤ reloadable file m ∧
      tokensLeft (reloadable file next.manager) next.task = tokensLeft r next.task := by
  by_cases loads : ∃ a id found, task = .reloading a id found
  · obtain ⟨a, id, found, rfl⟩ := loads
    have news : reloadMatch m id file = some found := filed
    cases taken
    exact ⟨_, reloadable_adopted news, rfl⟩
  · have plain : reloads task = 0 :=
      reloads_eq_zero fun a id found here => loads ⟨a, id, found, here⟩
    rcases holdings_step sound taken with settled | kept | ⟨a, id, found, here, -⟩
    · refine ⟨reloadable file m, by omega, ?_⟩
      rw [settled, settled]
    · refine ⟨_, ?_, rfl⟩
      rw [reloadable_of_holdings kept]
      omega
    · exact absurd ⟨a, id, found, here⟩ loads

theorem Running.step {tokens steps : Nat} {action : Action}
    (running : Running t file tokens steps trace s) (alone : Alone t file s action)
    (taken : System.step env s action = some s') :
    Running t file tokens steps ((s, action) :: trace) s' := by
  obtain ⟨input, rfl, same⟩ := alone
  obtain ⟨next, made, manager, lock, task⟩ := step_alone taken
  obtain ⟨r, fewer, here⟩ := reloadable_step running.sound running.filed made
  have paid := paid_step r running.sound made
  refine ⟨?_, ?_, ?_, ?_⟩
  · rw [lock, task]
    exact paid.sound
  · rw [manager, task]
    exact filed_step same made
  · rw [manager, task, here]
    have before := running.tokens
    have paid_tokens := paid.tokens
    have le := tokensLeft_mono fewer (s.tasks t)
    show asks (s.tasks t) + asked t trace + tokensLeft r next.task ≤ tokens
    omega
  · have before := running.steps
    have paid_steps := paid.steps
    have le := cost_mono fewer (s.tasks t)
    have same_cost : cost (reloadable file next.manager) next.task = cost r next.task := by
      unfold cost
      rw [here]
    rw [manager, task, same_cost, List.length_cons]
    omega

theorem acquire_bounded {model : Option String} (begins : Begins t model start)
    (run : Run (System.step env) start trace s) (alone : Guarded (Alone t file) trace) :
    asked t trace ≤ max (start.manager.entries.length * maxFailuresPerCredential) 1 +
        start.manager.entries.length ∧
      trace.length ≤ 20 * (max (start.manager.entries.length * maxFailuresPerCredential) 1 +
        start.manager.entries.length) + 7 ∧
      ((s.tasks t).waits = true → ∀ input, (System.step env s (.task t input)).isSome = true) := by
  let count := start.manager.entries.length
  have few := reloadable_le file start.manager
  have initial : Running t file (max (count * maxFailuresPerCredential) 1 + count)
      (20 * (max (count * maxFailuresPerCredential) 1 + count) + 7) [] start := by
    have left_le : left (reloadable file start.manager) ⟨model, 0, count⟩ ≤
        max (count * maxFailuresPerCredential) 1 + count := Nat.add_le_add_left few _
    refine ⟨?_, ?_, ?_, ?_⟩
    · rw [begins.task]
      exact begins.free
    · rw [begins.task]
      trivial
    · rw [begins.task]
      show 0 + left (reloadable file start.manager) ⟨model, 0, count⟩ ≤ _
      omega
    · rw [begins.task]
      show 0 + (20 * left (reloadable file start.manager) ⟨model, 0, count⟩ + 7) ≤ _
      omega
  have running := run.invariant initial (fun _ _ _ _ running alone taken =>
    running.step alone taken) alone
  refine ⟨?_, ?_, ?_⟩
  · exact Nat.le_trans (Nat.le_add_right _ _) running.tokens
  · exact Nat.le_trans (Nat.le_add_right _ _) running.steps
  · intro waits input
    unfold System.step
    rw [Option.isSome_map]
    exact progress running.sound waits

/-- The clock of every step is at `began` or later. -/
def Since (began : Nat) (_ : System) (action : Action) : Prop :=
  ∀ t input, action = .task t input → began ≤ input.now

def Obtains (t id : Nat) (s : System) (_ : Action) : Prop := failing (s.tasks t) ≠ some id

def spent (t : Nat) : List (System × Action) → Nat → Nat
  | [] => fun _ => 0
  | (s, _) :: earlier => charged (spent t earlier) (s.tasks t)

def FreshReloads (t : Nat) : List (System × Action) → Prop
  | [] => True
  | (s, _) :: earlier => FreshReloads t earlier ∧
      ∀ a id found, s.tasks t = .reloading a id found → spent t earlier id = 0

def freshReloads (t : Nat) : List (System × Action) → Bool
  | [] => true
  | (s, _) :: earlier => freshReloads t earlier &&
      match s.tasks t with
      | .reloading _ id _ => spent t earlier id == 0
      | _ => true

theorem freshReloads_iff : freshReloads t trace = true ↔ FreshReloads t trace := by
  induction trace with
  | nil => exact iff_of_true rfl trivial
  | cons p trace ih =>
    rw [freshReloads, FreshReloads, Bool.and_eq_true, ih]
    refine and_congr_right fun _ => ?_
    cases p.1.tasks t <;> simp

theorem eligible_later {model : Option String} {good : CredentialEntry} {began now : Nat}
    (eligible : Eligible env began model good) (later : began ≤ now) :
    Eligible env now model good where
  enabled := eligible.enabled
  not_throttled := fun _ until_ => Nat.le_trans (eligible.not_throttled _ until_) later
  not_rate_limited := fun _ until_ => Nat.le_trans (eligible.not_rate_limited _ until_) later
  serves := eligible.serves

theorem eligible_of_plain {e : CredentialEntry} (enabled : e.disabled = false)
    (not_throttled : e.throttledUntil = none) (not_limited : e.rateLimitedUntil = none) :
    Eligible env 0 none e where
  enabled := enabled
  not_throttled := by
    intro deadline until_
    rw [not_throttled] at until_
    cases until_
  not_rate_limited := by
    intro deadline until_
    rw [not_limited] at until_
    cases until_
  serves := fun never => nomatch never

theorem fair_run {model : Option String} {good : CredentialEntry} {began : Nat}
    (begins : Begins t model start) (run : Run (System.step env) start trace s)
    (alone : Guarded (Alone t file) trace) (nodup : (ids start.manager).Nodup)
    (there : good ∈ start.manager.entries) (eligible : Eligible env began model good)
    (since : Guarded (Since began) trace) (obtains : Guarded (Obtains t good.id) trace)
    (fresh : FreshReloads t trace) :
    Sound t s.refreshLock (s.tasks t) ∧ Fair good model (spent t trace) s.manager (s.tasks t) := by
  induction run with
  | nil =>
    rw [begins.task]
    exact ⟨begins.free, Fair.start ⟨nodup, there, eligible.enabled⟩ model⟩
  | cons run taken ih =>
    obtain ⟨sound, fair⟩ := ih alone.tail since.tail obtains.tail fresh.1
    obtain ⟨input, rfl, -⟩ := alone.head
    obtain ⟨next, made, manager, lock, task⟩ := step_alone taken
    have later := eligible_later eligible (since.head t input rfl)
    rw [manager, lock, task]
    exact ⟨(paid_step 0 sound made).sound, fair.step sound later obtains.head fresh.2 made⟩

theorem ended {lock : Option Nat} {task : Task} (sound : Sound t lock task)
    (finished : task.waits = false) :
    task = .failed ∨ ∃ model context, task = .returned model context := by
  cases task with
  | failed => exact .inl rfl
  | returned model context => exact .inr ⟨model, context, rfl⟩
  | idle | done => exact sound.elim
  | _ => cases finished

/-- A call that runs alone makes boundedly many token attempts and steps, and is never blocked.
It ends with a context whenever the token of an eligible credential can be had, provided that the
ids are distinct and that no credential is taken up from the file after a failure of it was
counted. -/
theorem acquire_complete {model : Option String} (begins : Begins t model start)
    (run : Run (System.step env) start trace s) (alone : Guarded (Alone t file) trace) :
    asked t trace ≤ max (start.manager.entries.length * maxFailuresPerCredential) 1 +
        start.manager.entries.length ∧
      trace.length ≤ 20 * (max (start.manager.entries.length * maxFailuresPerCredential) 1 +
        start.manager.entries.length) + 7 ∧
      ((s.tasks t).waits = true → ∀ input, (System.step env s (.task t input)).isSome = true) ∧
      ∀ good ∈ start.manager.entries, ∀ began, Eligible env began model good →
        Guarded (Since began) trace → Guarded (Obtains t good.id) trace →
        (ids start.manager).Nodup → FreshReloads t trace → (s.tasks t).waits = false →
        ∃ model' context, s.tasks t = .returned model' context := by
  obtain ⟨attempts, steps, moves⟩ := acquire_bounded begins run alone
  refine ⟨attempts, steps, moves, ?_⟩
  intro good there began eligible since obtains nodup fresh finished
  obtain ⟨sound, fair⟩ :=
    fair_run begins run alone nodup there eligible since obtains fresh
  rcases ended sound finished with lost | found
  · have alive := fair.alive
    rw [lost] at alive
    exact alive.elim
  · exact found

/-- A system in which task 0 begins an `acquire_context`. -/
def calling (m : MultiTokenManager) (model : Option String) : System :=
  ⟨m, none, Function.update (fun _ => .idle) 0 ((Call.acquireContext model).task m)⟩

theorem begins_calling (m : MultiTokenManager) (model : Option String) :
    Begins 0 model (calling m model) := by
  refine ⟨rfl, ?_⟩
  simp only [calling, Function.update_self]

def twoExpired : MultiTokenManager where
  config := ⟨"us-east-1", none, none⟩
  entries :=
    [{ id := 1, credentials := { id := some 1, refreshToken := some longToken } },
      { id := 2, credentials := { id := some 2, priority := 1, refreshToken := some longToken } },
      { id := 3, credentials := { id := some 3, priority := 2, kiroApiKey := some "ksk_3" } }]
  currentId := 1
  loadBalancingMode := "priority"
  enterpriseProfileFetchAttempted := []

def rotatedTwo : List KiroCredentials :=
  [{ id := some 1, refreshToken := some (longToken ++ "1") },
    { id := some 2, refreshToken := some (longToken ++ "2") }]

/-- The token endpoint fails twice for the first account, revokes its refresh token, fails three
more times for the new one, and treats the second account the same way. -/
def outages : List (Except RefreshError RefreshResponse) :=
  List.replicate 14 (.error (.other "HTTP 500")) ++
    List.replicate 8 (.error (.invalid "invalid_grant")) ++
    List.replicate 35 (.error (.other "HTTP 500")) ++
    List.replicate 8 (.error (.invalid "invalid_grant")) ++
    List.replicate 15 (.error (.other "HTTP 500"))

def outageActions : List Action :=
  outages.map fun answer => .task 0 { refresh := answer, file := some rotatedTwo }

theorem outage_run :
    ((follow (System.step plainEnv) [] (calling twoExpired none) outageActions).any fun reached =>
      reached.1.all (fun p => failing (p.1.tasks 0) != some 3) && reached.2.tasks 0 == .failed) =
    true := by
  decide +kernel

theorem outage_alone : ∀ a ∈ outageActions, ∀ s, Alone 0 (some rotatedTwo) s a := by
  intro a mem s
  obtain ⟨answer, -, rfl⟩ := List.mem_map.mp mem
  exact ⟨_, rfl, rfl⟩

/-- Nine failures of two accounts use up the nine attempts, and the API key is not asked for. -/
theorem outages_hide_working : ¬ ∀ (env : Env) (t : Nat) (model : Option String)
    (file : Option (List KiroCredentials)) (start s : System) (trace : List (System × Action)),
    Begins t model start → Run (System.step env) start trace s → Guarded (Alone t file) trace →
    ∀ good ∈ start.manager.entries, ∀ began, Eligible env began model good →
      Guarded (Since began) trace → Guarded (Obtains t good.id) trace →
      (s.tasks t).waits = false → ∃ model' context, s.tasks t = .returned model' context := by
  intro claim
  obtain ⟨reached, followed, holds⟩ := (Option.any_eq_true _ _).mp outage_run
  simp only [Bool.and_eq_true, List.all_eq_true, bne_iff_ne, beq_iff_eq] at holds
  obtain ⟨obtains, lost⟩ := holds
  obtain ⟨run, each⟩ := follow_run .nil followed
  have alone : Guarded (Alone 0 (some rotatedTwo)) reached.1 := by
    intro p mem
    rcases each p mem with never | taken
    · cases never
    · exact outage_alone p.2 taken p.1
  have eligible : Eligible plainEnv 0 none
      { id := 3, credentials := { id := some 3, priority := 2, kiroApiKey := some "ksk_3" } } :=
    eligible_of_plain rfl rfl rfl
  obtain ⟨model', context, found⟩ := claim plainEnv 0 none (some rotatedTwo)
    (calling twoExpired none) reached.2 reached.1 (begins_calling twoExpired none) run alone _
    (List.mem_cons_of_mem _ (List.mem_cons_of_mem _ List.mem_cons_self)) 0 eligible
    (fun _ _ _ input _ => Nat.zero_le input.now) obtains (by rw [lost]; rfl)
  rw [lost] at found
  cases found

/-- The token endpoint revokes the refresh token of the first account, and then fails for the new
one from the file and for the second account. -/
def refusals : List (Except RefreshError RefreshResponse) :=
  List.replicate 8 (.error (.invalid "invalid_grant")) ++
    List.replicate 45 (.error (.other "HTTP 500"))

def refusalActions : List Action :=
  refusals.map fun answer => .task 0 { refresh := answer, file := some rotatedTwo }

theorem refusal_run :
    ((follow (System.step plainEnv) [] (calling twoExpired none) refusalActions).any fun reached =>
      reached.1.all (fun p => failing (p.1.tasks 0) != some 3) && freshReloads 0 reached.1 &&
        (reached.2.tasks 0).waits == false) = true := by
  decide +kernel

theorem acquire_complete_refusals : ∃ trace s,
    Run (System.step plainEnv) (calling twoExpired none) trace s ∧
      ∃ model context, s.tasks 0 = .returned model context := by
  obtain ⟨reached, followed, holds⟩ := (Option.any_eq_true _ _).mp refusal_run
  simp only [Bool.and_eq_true, List.all_eq_true, bne_iff_ne, beq_iff_eq] at holds
  obtain ⟨⟨obtains, fresh⟩, finished⟩ := holds
  obtain ⟨run, taken⟩ := follow_run .nil followed
  have alone : Guarded (Alone 0 (some rotatedTwo)) reached.1 := by
    intro p mem
    rcases taken p mem with never | action
    · cases never
    · obtain ⟨answer, -, eq⟩ := List.mem_map.mp action
      exact ⟨_, eq.symm, rfl⟩
  obtain ⟨-, -, -, complete⟩ := acquire_complete (begins_calling twoExpired none) run alone
  refine ⟨reached.1, reached.2, run, complete _
    (List.mem_cons_of_mem _ (List.mem_cons_of_mem _ List.mem_cons_self)) 0 ?_ ?_ obtains ?_ ?_
    finished⟩
  · exact eligible_of_plain rfl rfl rfl
  · exact fun _ _ _ input _ => Nat.zero_le input.now
  · decide
  · exact freshReloads_iff.mp fresh

end KiroRs.Pool.AcquireRuns
