/- Path: KiroRs/Pool/Fairness
   source: src/kiro/token_manager.rs
   digest: What an `acquire_context` spends on failing credentials while a working one waits: each
   of them is switched off after at most three counted failures. -/

import Mathlib.Algebra.BigOperators.Group.Finset.Piecewise
import Mathlib.Algebra.Order.BigOperators.Group.Finset
import KiroRs.Pool.Acquire

set_option autoImplicit false
set_option relaxedAutoImplicit false

namespace KiroRs.Pool.Fairness

open KiroRs.Lib.Traces
open KiroRs.Pool.Credentials
open KiroRs.Pool.Manager
open KiroRs.Pool.Manager.MultiTokenManager
open KiroRs.Pool.Tasks
open KiroRs.Pool.Selection (Eligible selectNextCredential_eq_none eligible_of_selectNextCredential
  eligible_of_currentHit chosen)
open KiroRs.Pool.ManualDisable (ids ids_update mem_update find_of_mem ne_of_later)
open KiroRs.Pool.Acquire

variable {env : Env} {t : Nat} {input : Input} {m m' : MultiTokenManager} {lock : Option Nat}
variable {task : Task} {next : Next} {a : Attempt} {id : Nat} {good : CredentialEntry}
variable {used : Nat → Nat}

/-- The failures that a credential may still count until it is switched off. -/
def allowance (off : Bool) (count : Nat) : Nat :=
  if off then 0 else max 1 (maxFailuresPerCredential - count)

theorem allowance_le (off : Bool) (count : Nat) : allowance off count ≤ 3 := by
  unfold allowance maxFailuresPerCredential
  split_ifs <;> omega

theorem allowance_pos (count : Nat) : 1 ≤ allowance false count := Nat.le_max_left ..

theorem allowance_succ {count : Nat} (below : count + 1 < maxFailuresPerCredential) :
    allowance false (count + 1) + 1 ≤ allowance false count := by
  unfold allowance maxFailuresPerCredential at *
  rw [if_neg Bool.false_ne_true, if_neg Bool.false_ne_true]
  omega

def charge (used : Nat → Nat) (id : Nat) : Nat → Nat := Function.update used id (used id + 1)

theorem charge_self : charge used id id = used id + 1 := Function.update_self ..

theorem charge_other {other : Nat} (ne : other ≠ id) : charge used id other = used other :=
  Function.update_of_ne ne ..

theorem sum_charge {s : Finset Nat} (mem : id ∈ s) :
    ∑ i ∈ s, charge used id i = ∑ i ∈ s, used i + 1 := by
  have split_one : ∀ i ∈ s, charge used id i = used i + if i = id then 1 else 0 := by
    intro i _
    unfold charge
    rw [Function.update_apply]
    by_cases here : i = id
    · rw [if_pos here, if_pos here, here]
    · rw [if_neg here, if_neg here, Nat.add_zero]
  rw [Finset.sum_congr rfl split_one, Finset.sum_add_distrib, Finset.sum_ite_eq', if_pos mem]

def others (good : CredentialEntry) (m : MultiTokenManager) : Finset Nat :=
  (ids m).toFinset.erase good.id

theorem mem_others {i : Nat} : i ∈ others good m ↔ i ≠ good.id ∧ i ∈ ids m := by
  unfold others
  rw [Finset.mem_erase, List.mem_toFinset]

theorem others_congr (same : ids m' = ids m) : others good m' = others good m := by
  unfold others
  rw [same]

structure Stands (good : CredentialEntry) (m : MultiTokenManager) : Prop where
  nodup : (ids m).Nodup
  there : good ∈ m.entries
  enabled : good.disabled = false

theorem card_others (stands : Stands good m) : (others good m).card + 1 = m.entries.length := by
  have mem : good.id ∈ (ids m).toFinset :=
    List.mem_toFinset.mpr (List.mem_map_of_mem stands.there)
  unfold others
  rw [Finset.card_erase_add_one mem, List.toFinset_card_of_nodup stands.nodup]
  unfold ids
  exact List.length_map ..

theorem Stands.congr (stands : Stands good m) (same : m'.entries = m.entries) : Stands good m' where
  nodup := by
    unfold ids
    rw [same]
    exact stands.nodup
  there := by
    rw [same]
    exact stands.there
  enabled := stands.enabled

theorem mem_updated {f : CredentialEntry → CredentialEntry} {e : CredentialEntry}
    (nodup : (ids m).Nodup) (mem : e ∈ (m.update id f).entries) :
    (e ∈ m.entries ∧ e.id ≠ id) ∨ ∃ e₀ ∈ m.entries, e₀.id = id ∧ e = f e₀ := by
  have mem : e ∈ updateFirst id f m.entries := mem
  have nodup : (m.entries.map (·.id)).Nodup := nodup
  revert mem nodup
  induction m.entries with
  | nil =>
    intro mem
    cases mem
  | cons e₁ es ih =>
    intro mem nodup
    obtain ⟨absent, nodup⟩ := List.nodup_cons.mp nodup
    unfold updateFirst at mem
    split_ifs at mem with here
    · rcases List.mem_cons.mp mem with rfl | later
      · exact .inr ⟨e₁, List.mem_cons_self, here, rfl⟩
      · refine .inl ⟨List.mem_cons_of_mem _ later, ?_⟩
        rw [← here]
        exact (ne_of_later absent later).symm
    · rcases List.mem_cons.mp mem with rfl | later
      · exact .inl ⟨List.mem_cons_self, here⟩
      · rcases ih later nodup with ⟨old, ne⟩ | ⟨e₀, mem₀, rest⟩
        · exact .inl ⟨List.mem_cons_of_mem _ old, ne⟩
        · exact .inr ⟨e₀, List.mem_cons_of_mem _ mem₀, rest⟩

theorem mem_update_other {f : CredentialEntry → CredentialEntry} {e : CredentialEntry}
    (mem : e ∈ m.entries) (ne : e.id ≠ id) : e ∈ (m.update id f).entries := by
  show e ∈ updateFirst id f m.entries
  revert mem
  induction m.entries with
  | nil =>
    intro mem
    cases mem
  | cons e₁ es ih =>
    intro mem
    unfold updateFirst
    rcases List.mem_cons.mp mem with rfl | later
    · rw [if_neg ne]
      exact List.mem_cons_self
    · split_ifs
      · exact List.mem_cons_of_mem _ later
      · exact List.mem_cons_of_mem _ (ih later)

theorem mem_update_self {f : CredentialEntry → CredentialEntry} {e : CredentialEntry}
    (nodup : (ids m).Nodup) (mem : e ∈ m.entries) : f e ∈ (m.update e.id f).entries := by
  have nodup : (m.entries.map (·.id)).Nodup := nodup
  show f e ∈ updateFirst e.id f m.entries
  revert mem nodup
  induction m.entries with
  | nil =>
    intro mem
    cases mem
  | cons e₁ es ih =>
    intro mem nodup
    obtain ⟨absent, nodup⟩ := List.nodup_cons.mp nodup
    unfold updateFirst
    rcases List.mem_cons.mp mem with rfl | later
    · rw [if_pos rfl]
      exact List.mem_cons_self
    · rw [if_neg (ne_of_later absent later)]
      exact List.mem_cons_of_mem _ (ih later nodup)

theorem Stands.update {f : CredentialEntry → CredentialEntry} (stands : Stands good m)
    (keeps : ∀ e, (f e).id = e.id) (ne : good.id ≠ id) : Stands good (m.update id f) where
  nodup := by
    rw [ids_update keeps]
    exact stands.nodup
  there := mem_update_other stands.there ne
  enabled := stands.enabled

def holder (task : Task) : Option Nat := (chosen task).map (·.2)

def failing : Task → Option Nat
  | .recovering _ id | .reloading _ id _ | .reportingInvalid _ id | .reportingFailure _ id =>
      some id
  | _ => none

def Alive : Task → Prop
  | .failed | .healing _ | .reselecting _ => False
  | _ => True

def attemptOf : Task → Option Attempt
  | .loopHead a | .stickyCheck a | .selecting a | .switching a _ _ | .token (.acquire a) _ _
  | .lockWait (.acquire a) _ | .rereading (.acquire a) _ | .refreshing (.acquire a) _ _
  | .recovering a _ | .reloading a _ _ | .reportingInvalid a _ | .reportingFailure a _ => some a
  | _ => none

def charged (used : Nat → Nat) : Task → Nat → Nat
  | .reportingInvalid _ id | .reportingFailure _ id => charge used id
  | _ => used

def Mild (f : CredentialEntry → CredentialEntry) : Prop :=
  ∀ e, (f e).id = e.id ∧ (f e).disabled = e.disabled ∧ (f e).failureCount = e.failureCount

/-- The task goes on with its credential: nothing is changed, or, out of the loop, the entry of
the credential. -/
structure GoesOn (i : Nat) (m : MultiTokenManager) (task : Task) (next : Next) : Prop where
  holder : holder next.task = some i
  alive : Alive next.task
  attempt : ∀ a, attemptOf next.task = some a → attemptOf task = some a
  entries : next.manager.entries = m.entries ∨
    attemptOf next.task = none ∧ ∃ f, Mild f ∧ next.manager.entries = (m.update i f).entries

theorem GoesOn.still {i : Nat} {lock' : Option Nat} {task' : Task}
    (taken : some (⟨m', lock', task'⟩ : Next) = some next) (same : m'.entries = m.entries)
    (holds : Fairness.holder task' = some i) (alive : Alive task')
    (attempt : ∀ a, attemptOf task' = some a → attemptOf task = some a) :
    GoesOn i m task next := by
  cases taken
  exact ⟨holds, alive, attempt, .inl same⟩

theorem GoesOn.edited {i : Nat} {lock' : Option Nat} {task' : Task}
    {f : CredentialEntry → CredentialEntry} (mild : Mild f)
    (taken : some (⟨m', lock', task'⟩ : Next) = some next)
    (same : m'.entries = (m.update i f).entries) (holds : Fairness.holder task' = some i)
    (alive : Alive task') (out : attemptOf task' = none) : GoesOn i m task next := by
  cases taken
  refine ⟨holds, alive, ?_, .inr ⟨out, f, mild, same⟩⟩
  intro a has
  rw [out] at has
  cases has

/-- A task that works with a credential goes on with it, as long as its token can be had. -/
theorem holder_step {i : Nat} (sound : Sound t lock task) (works : failing task ≠ some i)
    (holds : holder task = some i) (taken : stepTask env t input m lock task = some next) :
    GoesOn i m task next := by
  have none_of : ∀ a : Attempt, (none : Option Attempt) = some a → attemptOf task = some a :=
    fun _ never => nomatch never
  cases task with
  | loopHead a | stickyCheck a | selecting a | healing a | reselecting a | failed => cases holds
  | switching a id c => exact .still taken rfl holds trivial fun _ has => has
  | token purpose id c =>
    cases purpose with
    | acquire a =>
      cases holds
      simp only [stepTask] at taken
      rcases tokenTask_acquire env input.utcNow a id c with
        ⟨context, eq⟩ | eq | ⟨token, eq⟩ | eq
      · have same : holder (tokenTask env input.utcNow (.acquire a) id c) = some id := by
          unfold holder
          rw [Selection.chosen_tokenTask]
          rfl
        rw [eq] at taken same
        exact .still taken rfl same trivial none_of
      · rw [eq] at taken
        exact .still taken rfl rfl trivial fun _ has => has
      · rw [eq] at taken
        exact .still taken rfl rfl trivial none_of
      · rw [eq] at taken
        exact .still taken rfl rfl trivial fun _ has => has
    | usage | models | preference => exact sound.elim
  | lockWait purpose id =>
    cases purpose with
    | acquire a =>
      simp only [stepTask] at taken
      split_ifs at taken
      exact .still taken rfl holds trivial fun _ has => has
    | usage | models | preference => exact sound.elim
  | rereading purpose id =>
    cases purpose with
    | acquire a =>
      simp only [stepTask] at taken
      split at taken
      · exact .still taken rfl holds trivial fun _ has => has
      · next e found =>
        split_ifs at taken
        · exact .still taken rfl holds trivial fun _ has => has
        · rcases withAccessToken_acquire a id e.credentials with ⟨token, eq⟩ | eq
          · rw [eq] at taken
            exact .still taken rfl holds trivial none_of
          · rw [eq] at taken
            exact .still taken rfl holds trivial fun _ has => has
    | usage | models | preference => exact sound.elim
  | refreshing purpose id snapshot =>
    cases purpose with
    | acquire a =>
      cases holds
      simp only [stepTask] at taken
      split at taken
      · next e answer =>
        rcases tokenFailed_acquire a id e with eq | eq
        · rw [eq] at taken
          exact .still taken rfl rfl trivial fun _ has => has
        · rw [eq] at taken
          exact .still taken rfl rfl trivial fun _ has => has
      · next new answer =>
        split_ifs at taken
        · exact .still taken rfl rfl trivial fun _ has => has
        · obtain ⟨token, eq⟩ := withAccessToken_refreshed answer a id
          rw [eq] at taken
          exact .edited (f := fun e => { e with credentials := new }) (fun _ => ⟨rfl, rfl, rfl⟩)
            taken rfl rfl trivial rfl
    | usage | models | preference => exact sound.elim
  | profile a id c token =>
    simp only [stepTask] at taken
    split_ifs at taken
    · exact .still taken rfl holds trivial none_of
    · exact .still taken rfl holds trivial none_of
    · exact .still taken rfl holds trivial none_of
  | fetchingProfile a id c token =>
    simp only [stepTask] at taken
    split at taken
    · exact .still taken rfl holds trivial none_of
    · exact .still taken rfl holds trivial none_of
    · exact .still taken rfl holds trivial none_of
  | settingProfile a id c token arn =>
    cases holds
    simp only [stepTask] at taken
    split at taken
    · exact .still taken rfl rfl trivial none_of
    · exact .edited (f := fun e =>
        { e with credentials := { e.credentials with profileArn := some arn } })
        (fun _ => ⟨rfl, rfl, rfl⟩) taken rfl rfl trivial rfl
  | fallbackProfile a id c token =>
    simp only [stepTask] at taken
    split at taken
    · exact .still taken rfl holds trivial none_of
    · split_ifs at taken
      · exact .still taken rfl holds trivial none_of
      · exact .still taken rfl holds trivial none_of
  | finishing a id c token =>
    cases holds
    exact .edited (f := fun e => { e with refreshFailureCount := 0 }) (fun _ => ⟨rfl, rfl, rfl⟩)
      taken rfl rfl trivial rfl
  | recovering a id | reloading a id found | reportingInvalid a id | reportingFailure a id =>
    exact absurd holds works
  | returned model context => cases taken
  | idle | done | reading _ _ | querying _ _ | awaitingUsage _ | fillingTitle _ _
  | fillingEmail _ _ | forceReading _ | forceWaiting _ _ | forceRefreshing _ _ | adding _
  | addRefreshing _ | addChoosing _ _ | addPushing _ _ => exact sound.elim

theorem anyEnabled_of_mem {e : CredentialEntry} (mem : e ∈ m.entries)
    (enabled : e.disabled = false) : m.anyEnabled = true := by
  unfold MultiTokenManager.anyEnabled
  rw [List.any_eq_true]
  refine ⟨e, mem, ?_⟩
  rw [enabled]
  rfl

theorem bestEnabled_of_mem {e : CredentialEntry} (mem : e ∈ m.entries)
    (enabled : e.disabled = false) : (m.bestEnabled fun _ => true).isSome = true := by
  rw [Option.isSome_iff_ne_none]
  intro none_left
  have empty := List.argmin_eq_none.mp none_left
  have there : e ∈ m.entries.filter fun e => !e.disabled && true := by
    rw [List.mem_filter, enabled]
    exact ⟨mem, rfl⟩
  rw [empty] at there
  cases there

theorem onEnabled_of_find {report : CredentialEntry → MultiTokenManager × Bool}
    {e : CredentialEntry} (found : m.find id = some e) (enabled : e.disabled = false) :
    m.onEnabled id report = report e := by
  unfold MultiTokenManager.onEnabled
  rw [found]
  dsimp only
  rw [enabled]
  exact if_neg Bool.false_ne_true

/-- A counted failure of an enabled entry: it is switched off, or nearer to that, and the call
goes on as long as another entry is enabled. -/
structure Counted (e : CredentialEntry) (m : MultiTokenManager)
    (report : MultiTokenManager × Bool) : Prop where
  edited : ∃ f : CredentialEntry → CredentialEntry, (∀ e', (f e').id = e'.id) ∧
    (∀ e', (f e').failureCount = e'.failureCount ∧ (e'.disabled = true → (f e').disabled = true)) ∧
    report.1.entries = (m.update e.id f).entries ∧
    allowance (f e).disabled (f e).refreshFailureCount + 1 ≤ allowance false e.refreshFailureCount
  left : ∀ other ∈ m.entries, other.id ≠ e.id → other.disabled = false → report.2 = true

theorem Counted.of_update {e : CredentialEntry} {f : CredentialEntry → CredentialEntry}
    {report : MultiTokenManager × Bool} (keeps : ∀ e', (f e').id = e'.id)
    (mild : ∀ e', (f e').failureCount = e'.failureCount ∧
      (e'.disabled = true → (f e').disabled = true))
    (entries : report.1.entries = (m.update e.id f).entries)
    (nearer : allowance (f e).disabled (f e).refreshFailureCount + 1 ≤
      allowance false e.refreshFailureCount)
    (asks : report.2 = (m.update e.id f).anyEnabled ∨
      report.2 = ((m.update e.id f).bestEnabled fun _ => true).isSome) : Counted e m report where
  edited := ⟨f, keeps, mild, entries, nearer⟩
  left := by
    intro other mem ne enabled
    have there : other ∈ (m.update e.id f).entries := mem_update_other mem ne
    rcases asks with any | best
    · rw [any]
      exact anyEnabled_of_mem there enabled
    · rw [best]
      exact bestEnabled_of_mem there enabled

theorem allowance_off (count before : Nat) : allowance true count + 1 ≤ allowance false before :=
  allowance_pos before

theorem counted_reportInvalid {e : CredentialEntry} (found : m.find e.id = some e)
    (enabled : e.disabled = false) (stamp : String) :
    Counted e m (m.reportRefreshTokenInvalid e.id stamp) := by
  unfold MultiTokenManager.reportRefreshTokenInvalid
  rw [onEnabled_of_find found enabled]
  refine .of_update (f := fun e =>
    { e with
      lastUsedAt := some stamp
      disabled := true
      disabledReason := some .invalidRefreshToken }) (fun _ => rfl) (fun _ => ⟨rfl, fun _ => rfl⟩)
    entries_switchToBest (allowance_off _ _) (.inr rfl)

theorem counted_reportFailure {e : CredentialEntry} (found : m.find e.id = some e)
    (enabled : e.disabled = false) (stamp : String) :
    Counted e m (m.reportRefreshFailure e.id stamp) := by
  unfold MultiTokenManager.reportRefreshFailure
  rw [onEnabled_of_find found enabled]
  dsimp only
  split_ifs with below
  · refine .of_update (f := fun e' =>
      { e' with lastUsedAt := some stamp, refreshFailureCount := e.refreshFailureCount + 1 })
      (fun _ => rfl) (fun _ => ⟨rfl, id⟩) rfl ?_ (.inl rfl)
    dsimp only
    rw [enabled]
    exact allowance_succ below
  · exact .of_update (f := fun e' =>
      { e' with
        lastUsedAt := some stamp
        refreshFailureCount := e.refreshFailureCount + 1
        disabled := true
        disabledReason := some .tooManyRefreshFailures }) (fun _ => rfl)
      (fun _ => ⟨rfl, fun _ => rfl⟩) entries_switchToBest (allowance_off _ _) (.inr rfl)

theorem report_step (reports : task = .reportingInvalid a id ∨ task = .reportingFailure a id)
    {e : CredentialEntry} (found : m.find id = some e) (enabled : e.disabled = false)
    (taken : stepTask env t input m lock task = some next) :
    ∃ report : MultiTokenManager × Bool, Counted e m report ∧ next.manager = report.1 ∧
      next.task = if report.2 then .loopHead { a with attemptCount := a.attemptCount + 1 }
        else .failed := by
  have same := id_of_find found
  cases same
  rcases reports with rfl | rfl
  · cases taken
    exact ⟨_, counted_reportInvalid found enabled input.stamp, rfl, rfl⟩
  · cases taken
    exact ⟨_, counted_reportFailure found enabled input.stamp, rfl, rfl⟩

/-- The ids stay, and apart from the entries just taken up from the file no entry is enabled or
counts another failed answer. -/
structure Kept (loaded : Nat → Prop) (m m' : MultiTokenManager) : Prop where
  same_ids : ids m' = ids m
  each : ∀ e' ∈ m'.entries, loaded e'.id ∨ ∃ e ∈ m.entries, e.id = e'.id ∧
    e'.failureCount = e.failureCount ∧ (e.disabled = true → e'.disabled = true)

variable {loaded : Nat → Prop}

theorem Kept.same (same : m'.entries = m.entries) : Kept loaded m m' where
  same_ids := by
    unfold ids
    rw [same]
  each := by
    intro e mem
    rw [same] at mem
    exact .inr ⟨e, mem, rfl, rfl, id⟩

theorem Kept.update {f : CredentialEntry → CredentialEntry}
    (same : m'.entries = (m.update id f).entries) (keeps : ∀ e, (f e).id = e.id)
    (mild : ∀ e, (f e).failureCount = e.failureCount ∧
      (e.disabled = true → (f e).disabled = true)) : Kept loaded m m' where
  same_ids := by
    have renamed : ids (m.update id f) = ids m := ids_update keeps
    rw [← renamed]
    unfold ids
    rw [same]
  each := by
    intro e' mem
    rw [same] at mem
    rcases mem_update mem with old | ⟨e, there, -, rfl⟩
    · exact .inr ⟨e', old, rfl, rfl, fun off => off⟩
    · exact .inr ⟨e, there, (keeps e).symm, mild e⟩

theorem Kept.onEnabled {report : CredentialEntry → MultiTokenManager × Bool}
    (counted : ∀ e, m.find id = some e → e.disabled = false → Kept loaded m (report e).1) :
    Kept loaded m (m.onEnabled id report).1 := by
  unfold MultiTokenManager.onEnabled
  cases found : m.find id with
  | none => exact .same rfl
  | some e =>
    dsimp only
    split_ifs with off
    · exact .same rfl
    · exact counted e found (Bool.eq_false_iff.mpr off)

theorem Kept.reported {e : CredentialEntry} {report : MultiTokenManager × Bool}
    (counted : Counted e m report) : Kept loaded m report.1 := by
  obtain ⟨f, keeps, mild, entries, -⟩ := counted.edited
  exact .update entries keeps mild

/-- What a step of an `acquire_context` keeps. -/
theorem kept_step (sound : Sound t lock task) (alive : Alive task)
    (taken : stepTask env t input m lock task = some next) :
    Kept (fun i => ∃ a found, task = .reloading a i found) m next.manager := by
  have goes : ∀ i, holder task = some i → failing task = none →
      Kept (fun i => ∃ a found, task = .reloading a i found) m next.manager := by
    intro i holds serves
    have on := holder_step sound (by rw [serves]; exact fun never => nomatch never) holds taken
    rcases on.entries with same | ⟨-, f, mild, same⟩
    · exact .same same
    · exact .update same (fun e => (mild e).1)
        fun e => ⟨(mild e).2.2, fun off => (mild e).2.1.trans off⟩
  cases task with
  | loopHead a =>
    simp only [stepTask] at taken
    split_ifs at taken
    · cases taken
      exact .same rfl
    · cases taken
      exact .same rfl
    · cases taken
      exact .same rfl
  | stickyCheck a | selecting a =>
    simp only [stepTask] at taken
    split at taken
    · cases taken
      exact .same rfl
    · cases taken
      exact .same rfl
  | healing a | reselecting a | failed => exact alive.elim
  | recovering a id =>
    simp only [stepTask] at taken
    split at taken
    · cases taken
      exact .same rfl
    · cases taken
      exact .same rfl
  | reloading a id found =>
    cases taken
    refine ⟨ids_update fun _ => rfl, ?_⟩
    intro e' mem
    rcases mem_update mem with old | ⟨e, mem, here, rfl⟩
    · exact .inr ⟨e', old, rfl, rfl, fun off => off⟩
    · exact .inl ⟨a, found, by rw [← here]⟩
  | reportingInvalid a id =>
    cases taken
    refine Kept.onEnabled fun e found enabled => ?_
    have same := id_of_find found
    cases same
    have counted := counted_reportInvalid found enabled input.stamp
    unfold MultiTokenManager.reportRefreshTokenInvalid at counted
    rw [onEnabled_of_find found enabled] at counted
    exact .reported counted
  | reportingFailure a id =>
    cases taken
    refine Kept.onEnabled fun e found enabled => ?_
    have same := id_of_find found
    cases same
    have counted := counted_reportFailure found enabled input.stamp
    unfold MultiTokenManager.reportRefreshFailure at counted
    rw [onEnabled_of_find found enabled] at counted
    exact .reported counted
  | switching a id _ | profile a id _ _ | fetchingProfile a id _ _ | fallbackProfile a id _ _
  | settingProfile a id _ _ _ | finishing a id _ _ => exact goes id rfl rfl
  | token purpose id _ | lockWait purpose id | rereading purpose id | refreshing purpose id _ =>
    cases purpose with
    | acquire a => exact goes id rfl rfl
    | usage | models | preference => exact sound.elim
  | returned model context => cases taken
  | idle | done | reading _ _ | querying _ _ | awaitingUsage _ | fillingTitle _ _
  | fillingEmail _ _ | forceReading _ | forceWaiting _ _ | forceRefreshing _ _ | adding _
  | addRefreshing _ | addChoosing _ _ | addPushing _ _ => exact sound.elim

/-- While another credential is asked: the call's count is covered by the failures of the others,
and each of those had at most three, with what it may still have. -/
structure Ledger (good : CredentialEntry) (model : Option String) (used : Nat → Nat)
    (m : MultiTokenManager) (task : Task) : Prop where
  stands : Stands good m
  enabled : ∀ i, holder task = some i → ∃ e ∈ m.entries, e.id = i ∧ e.disabled = false
  counted : ∀ a, attemptOf task = some a → a.model = model ∧ a.total = m.entries.length ∧
    a.attemptCount ≤ ∑ i ∈ others good m, used i ∧
    ∀ e ∈ m.entries, e.id ≠ good.id → used e.id + allowance e.disabled e.refreshFailureCount ≤ 3

/-- The call has not failed, and as long as it has not come to the working credential its ledger is
in order. -/
structure Fair (good : CredentialEntry) (model : Option String) (used : Nat → Nat)
    (m : MultiTokenManager) (task : Task) : Prop where
  alive : Alive task
  ledger : holder task ≠ some good.id → Ledger good model used m task

variable {model : Option String}

theorem Ledger.move (ledger : Ledger good model used m task) {task' : Task}
    (entries : m'.entries = m.entries) (same : ∀ a, attemptOf task' = some a →
      attemptOf task = some a)
    (enabled : ∀ i, holder task' = some i → ∃ e ∈ m.entries, e.id = i ∧ e.disabled = false) :
    Ledger good model used m' task' where
  stands := ledger.stands.congr entries
  enabled := by
    rw [entries]
    exact enabled
  counted := by
    intro a has
    have same_ids : ids m' = ids m := by
      unfold ids
      rw [entries]
    rw [entries, others_congr same_ids]
    exact ledger.counted a (same a has)

theorem Ledger.within_budget (ledger : Ledger good model used m task)
    (has : attemptOf task = some a) : a.attemptCount < budget a := by
  obtain ⟨-, total, count, each⟩ := ledger.counted a has
  have three : ∑ i ∈ others good m, used i ≤ (others good m).card • 3 := by
    refine Finset.sum_le_card_nsmul _ _ 3 fun i mem => ?_
    obtain ⟨ne, there⟩ := mem_others.mp mem
    obtain ⟨e, mem_e, rfl⟩ := List.mem_map.mp there
    exact Nat.le_trans (Nat.le_add_right _ _) (each e mem_e ne)
  have card := card_others ledger.stands
  rw [Nat.nsmul_eq_mul] at three
  unfold budget maxFailuresPerCredential
  omega

theorem Ledger.reported (ledger : Ledger good model used m task)
    (reports : task = .reportingInvalid a id ∨ task = .reportingFailure a id) (ne : id ≠ good.id)
    (taken : stepTask env t input m lock task = some next) :
    Alive next.task ∧ Ledger good model (charge used id) next.manager next.task := by
  have holds : holder task = some id := by
    rcases reports with rfl | rfl <;> rfl
  have has : attemptOf task = some a := by
    rcases reports with rfl | rfl <;> rfl
  obtain ⟨e, mem, rfl, enabled⟩ := ledger.enabled id holds
  obtain ⟨nodup, there, good_enabled⟩ := ledger.stands
  have found := find_of_mem nodup mem
  obtain ⟨report, ⟨⟨f, keeps, mild, entries, nearer⟩, left⟩, manager, went⟩ :=
    report_step reports found enabled taken
  rw [left good there ne.symm good_enabled, if_pos rfl] at went
  have same_ids : ids next.manager = ids m := by
    rw [manager]
    unfold ids
    rw [entries]
    exact ids_update keeps
  have stands : Stands good next.manager := by
    rw [manager]
    exact (ledger.stands.update keeps ne.symm).congr entries
  obtain ⟨same_model, total, count, each⟩ := ledger.counted a has
  have e_other : e.id ∈ others good m := mem_others.mpr ⟨ne, List.mem_map_of_mem mem⟩
  rw [went]
  refine ⟨trivial, stands, ?_, ?_⟩
  · intro i holds
    cases holds
  · intro a' has'
    cases has'
    refine ⟨same_model, ?_, ?_, ?_⟩
    · have lengths := congrArg List.length same_ids
      unfold ids at lengths
      rw [List.length_map, List.length_map] at lengths
      rw [lengths]
      exact total
    · rw [others_congr same_ids, sum_charge e_other]
      exact Nat.succ_le_succ count
    · intro e' mem' ne'
      rw [manager, entries] at mem'
      rcases mem_updated nodup mem' with ⟨old, other⟩ | ⟨e₀, mem₀, same, rfl⟩
      · rw [charge_other other]
        exact each e' old ne'
      · have first : e₀ = e := by
          have found₀ := find_of_mem nodup mem₀
          rw [same, found] at found₀
          cases found₀
          rfl
        cases first
        have before := each e mem ne
        rw [enabled] at before
        rw [keeps, charge_self]
        omega

theorem Ledger.reloaded {found : KiroCredentials} (ne : id ≠ good.id)
    (ledger : Ledger good model used m (.reloading a id found)) (fresh : used id = 0) :
    Ledger good model used (m.update id (adopt found)) (.loopHead a) where
  stands := ledger.stands.update (fun _ => rfl) ne.symm
  enabled := fun _ never => nomatch never
  counted := by
    intro a' has
    cases has
    obtain ⟨same_model, total, count, each⟩ := ledger.counted a rfl
    have same_ids : ids (m.update id (adopt found)) = ids m := ids_update fun _ => rfl
    have lengths := congrArg List.length same_ids
    unfold ids at lengths
    rw [List.length_map, List.length_map] at lengths
    rw [others_congr same_ids, lengths]
    refine ⟨same_model, total, count, ?_⟩
    intro e mem ne'
    rcases mem_updated ledger.stands.nodup mem with ⟨old, -⟩ | ⟨e₀, -, same, rfl⟩
    · exact each e old ne'
    · have here : (adopt found e₀).id = id := same
      rw [here, fresh]
      exact Nat.le_trans (Nat.le_of_eq (Nat.zero_add _)) (allowance_le _ _)

theorem Ledger.goesOn {i : Nat} (ledger : Ledger good model used m task) (ne : i ≠ good.id)
    (holds : holder task = some i) (on : GoesOn i m task next) :
    Ledger good model used next.manager next.task := by
  rcases on.entries with same | ⟨out, f, mild, same⟩
  · refine ledger.move same on.attempt ?_
    intro i' holds'
    rw [on.holder] at holds'
    cases holds'
    exact ledger.enabled i holds
  · refine ⟨?_, ?_, ?_⟩
    · exact (ledger.stands.update (fun e => (mild e).1) ne.symm).congr same
    · intro i' holds'
      rw [on.holder] at holds'
      cases holds'
      obtain ⟨e, mem, rfl, enabled⟩ := ledger.enabled i holds
      refine ⟨f e, ?_, (mild e).1, ?_⟩
      · rw [same]
        exact mem_update_self ledger.stands.nodup mem
      · rw [(mild e).2.1]
        exact enabled
    · intro a has
      rw [out] at has
      cases has

theorem selectable_of_good {now : Nat} (there : good ∈ m.entries)
    (eligible : Eligible env now model good) : m.selectNextCredential env now model ≠ none := by
  exact fun none_left => selectNextCredential_eq_none.mp none_left good there eligible

/-- One step of a call while a working credential waits. -/
theorem Fair.step (fair : Fair good model used m task) (sound : Sound t lock task)
    (eligible : Eligible env input.now model good) (works : failing task ≠ some good.id)
    (fresh : ∀ a id found, task = .reloading a id found → used id = 0)
    (taken : stepTask env t input m lock task = some next) :
    Fair good model (charged used task) next.manager next.task := by
  by_cases holds : holder task = some good.id
  · have on := holder_step sound works holds taken
    exact ⟨on.alive, fun other => absurd on.holder other⟩
  have ledger := fair.ledger holds
  have alive := fair.alive
  have goes : ∀ i, holder task = some i → failing task = none →
      Fair good model used next.manager next.task := by
    intro i asked serves
    have ne : i ≠ good.id := fun same => holds (same ▸ asked)
    have on := holder_step sound (by rw [serves]; exact fun never => by cases never) asked taken
    exact ⟨on.alive, fun _ => ledger.goesOn ne asked on⟩
  cases task with
  | loopHead a =>
    have within := ledger.within_budget (a := a) rfl
    simp only [stepTask] at taken
    split_ifs at taken with spent balanced
    · exact absurd spent (Nat.not_le_of_lt within)
    · cases taken
      exact ⟨trivial, fun _ => ledger.move rfl (fun _ has => has) fun _ never => by cases never⟩
    · cases taken
      exact ⟨trivial, fun _ => ledger.move rfl (fun _ has => has) fun _ never => by cases never⟩
  | stickyCheck a =>
    simp only [stepTask] at taken
    split at taken
    · next e hit =>
      cases taken
      refine ⟨trivial, fun _ => ledger.move rfl (fun _ has => has) fun i asked => ?_⟩
      cases asked
      have test := List.find?_some hit
      simp only [Bool.and_eq_true, Bool.not_eq_true'] at test
      exact ⟨e, List.mem_of_find?_eq_some hit, rfl, test.1.1.2⟩
    · cases taken
      exact ⟨trivial, fun _ => ledger.move rfl (fun _ has => has) fun _ never => by cases never⟩
  | selecting a =>
    obtain ⟨same_model, -⟩ := ledger.counted a rfl
    simp only [stepTask] at taken
    split at taken
    · next e hit =>
      cases taken
      refine ⟨trivial, fun _ => ledger.move rfl (fun _ has => has) fun i asked => ?_⟩
      cases asked
      obtain ⟨mem, fits⟩ := eligible_of_selectNextCredential hit
      exact ⟨e, mem, rfl, fits.enabled⟩
    · next none_left =>
      rw [same_model] at none_left
      exact absurd none_left (selectable_of_good ledger.stands.there eligible)
  | healing a | reselecting a | failed => exact alive.elim
  | recovering a id =>
    simp only [stepTask] at taken
    have asked := ledger.enabled id rfl
    split at taken
    · cases taken
      refine ⟨trivial, fun _ => ledger.move rfl (fun _ has => has) fun i holds' => ?_⟩
      cases holds'
      exact asked
    · cases taken
      refine ⟨trivial, fun _ => ledger.move rfl (fun _ has => has) fun i holds' => ?_⟩
      cases holds'
      exact asked
  | reloading a id found =>
    have ne : id ≠ good.id := fun same => holds (congrArg some same)
    cases taken
    exact ⟨trivial, fun _ => ledger.reloaded ne (fresh a id found rfl)⟩
  | reportingInvalid a id =>
    have ne : id ≠ good.id := fun same => holds (congrArg some same)
    obtain ⟨alive', ledger'⟩ := ledger.reported (.inl rfl) ne taken
    exact ⟨alive', fun _ => ledger'⟩
  | reportingFailure a id =>
    have ne : id ≠ good.id := fun same => holds (congrArg some same)
    obtain ⟨alive', ledger'⟩ := ledger.reported (.inr rfl) ne taken
    exact ⟨alive', fun _ => ledger'⟩
  | returned model context => cases taken
  | switching a id _ | profile a id _ _ | fetchingProfile a id _ _ | fallbackProfile a id _ _
  | settingProfile a id _ _ _ | finishing a id _ _ => exact goes id rfl rfl
  | token purpose id _ | lockWait purpose id | rereading purpose id | refreshing purpose id _ =>
    cases purpose with
    | acquire a => exact goes id rfl rfl
    | usage | models | preference => exact sound.elim
  | idle | done | reading _ _ | querying _ _ | awaitingUsage _ | fillingTitle _ _
  | fillingEmail _ _ | forceReading _ | forceWaiting _ _ | forceRefreshing _ _ | adding _
  | addRefreshing _ | addChoosing _ _ | addPushing _ _ => exact sound.elim

theorem Fair.start (stands : Stands good m) (model : Option String) :
    Fair good model (fun _ => 0) m ((Call.acquireContext model).task m) := by
  refine ⟨trivial, fun _ => ⟨stands, ?_, ?_⟩⟩
  · intro i never
    cases never
  intro a has
  cases has
  refine ⟨rfl, rfl, Nat.zero_le _, ?_⟩
  intro e _ _
  exact Nat.le_trans (Nat.le_of_eq (Nat.zero_add _)) (allowance_le _ _)

end KiroRs.Pool.Fairness
