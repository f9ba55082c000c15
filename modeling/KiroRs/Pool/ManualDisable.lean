/- Path: KiroRs/Pool/ManualDisable
   source: src/kiro/token_manager.rs
   digest: An entry that an administrator switched off stays off until an administrator switches it
   on, except for a request that reloads it from the credentials file. -/

import KiroRs.Pool.RefreshInterleaving

set_option autoImplicit false
set_option relaxedAutoImplicit false

namespace KiroRs.Pool.ManualDisable

open KiroRs.Lib.Traces
open KiroRs.Pool.Credentials
open KiroRs.Pool.Manager
open KiroRs.Pool.Manager.MultiTokenManager
open KiroRs.Pool.Tasks
open KiroRs.Pool.Selection
open KiroRs.Pool.RefreshInterleaving

variable {env : Env} {m : MultiTokenManager} {id id' : Nat}

/-- What a successful operation of the administrator does to the switch of an entry: off, on, or
gone with the entry. -/
def switchOf (id : Nat) (step : System × Action) : Option Bool :=
  match step.2 with
  | .operation (.setDisabled id' disabled) =>
      if id' = id ∧ (step.1.manager.setDisabled id disabled).isOk then some disabled else none
  | .operation (.resetAndEnable id') =>
      if id' = id ∧ (step.1.manager.resetAndEnable id).isOk then some false else none
  | .operation (.deleteEntry id') =>
      if id' = id ∧ (step.1.manager.deleteEntry id).isOk then some false else none
  | _ => none

/-- The administrator switched the entry off, and has not switched it on or deleted it since. -/
def SwitchedOff (id : Nat) (trace : List (System × Action)) : Prop :=
  trace.findSome? (switchOf id) = some true

def Off (e : CredentialEntry) : Prop :=
  e.disabled = true ∧ e.disabledReason ≠ some .tooManyFailures

def ids (m : MultiTokenManager) : List Nat := m.entries.map (·.id)

/-- The pool has the entry, and every entry of that id is off. -/
def OffAt (m : MultiTokenManager) (id : Nat) : Prop :=
  id ∈ ids m ∧ ∀ e ∈ m.entries, e.id = id → Off e

theorem ids_update {f : CredentialEntry → CredentialEntry} (keeps : ∀ e, (f e).id = e.id) :
    ids (m.update id f) = ids m := by
  unfold ids MultiTokenManager.update
  dsimp only
  induction m.entries with
  | nil => rfl
  | cons e es ih =>
      unfold updateFirst
      split_ifs
      · rw [List.map_cons, List.map_cons, keeps]
      · rw [List.map_cons, List.map_cons, ih]

theorem ne_of_later {e₁ e : CredentialEntry} {es : List CredentialEntry}
    (absent : e₁.id ∉ es.map (·.id)) (later : e ∈ es) : e₁.id ≠ e.id := by
  intro same
  rw [same] at absent
  exact absent (List.mem_map_of_mem later)

theorem find_of_mem (nodup : (ids m).Nodup) {e : CredentialEntry} (mem : e ∈ m.entries) :
    m.find e.id = some e := by
  have nodup : (m.entries.map (·.id)).Nodup := nodup
  show m.entries.find? (·.id == e.id) = some e
  revert mem nodup
  induction m.entries with
  | nil =>
    intro mem
    cases mem
  | cons e₁ es ih =>
    intro mem nodup
    obtain ⟨absent, nodup⟩ := List.nodup_cons.mp nodup
    rw [List.find?_cons]
    rcases List.mem_cons.mp mem with rfl | later
    · rw [beq_self_eq_true]
    · have skip : (e₁.id == e.id) = false :=
        beq_eq_false_iff_ne.mpr (ne_of_later absent later)
      rw [skip]
      exact ih later nodup

theorem mem_update {f : CredentialEntry → CredentialEntry} {e : CredentialEntry}
    (mem : e ∈ (m.update id f).entries) :
    e ∈ m.entries ∨ ∃ e₀ ∈ m.entries, e₀.id = id ∧ e = f e₀ := by
  have mem : e ∈ updateFirst id f m.entries := mem
  revert mem
  induction m.entries with
  | nil => exact fun mem => .inl mem
  | cons e₁ es ih =>
      unfold updateFirst
      intro mem
      split_ifs at mem with here
      · rcases List.mem_cons.mp mem with rfl | later
        · exact .inr ⟨e₁, List.mem_cons_self, here, rfl⟩
        · exact .inl (List.mem_cons_of_mem _ later)
      · rcases List.mem_cons.mp mem with rfl | later
        · exact .inl List.mem_cons_self
        · rcases ih later with old | ⟨e₀, mem₀, rest⟩
          · exact .inl (List.mem_cons_of_mem _ old)
          · exact .inr ⟨e₀, List.mem_cons_of_mem _ mem₀, rest⟩

theorem changed_of_mem_update {f : CredentialEntry → CredentialEntry} {e : CredentialEntry}
    (nodup : (ids m).Nodup) (mem : e ∈ (m.update id f).entries) (here : e.id = id) :
    ∃ e₀ ∈ m.entries, e = f e₀ := by
  have nodup : (m.entries.map (·.id)).Nodup := nodup
  have mem : e ∈ updateFirst id f m.entries := mem
  revert mem nodup
  induction m.entries with
  | nil =>
    intro _ mem
    cases mem
  | cons e₁ es ih =>
    intro nodup mem
    obtain ⟨absent, nodup⟩ := List.nodup_cons.mp nodup
    unfold updateFirst at mem
    split_ifs at mem with first
    · rcases List.mem_cons.mp mem with rfl | later
      · exact ⟨e₁, List.mem_cons_self, rfl⟩
      · exact absurd (first.trans here.symm) (ne_of_later absent later)
    · rcases List.mem_cons.mp mem with rfl | later
      · exact absurd here first
      · obtain ⟨e₀, mem₀, rfl⟩ := ih nodup later
        exact ⟨e₀, List.mem_cons_of_mem _ mem₀, rfl⟩

theorem OffAt.congr {m' : MultiTokenManager} (h : OffAt m id) (same : m'.entries = m.entries) :
    OffAt m' id := by
  unfold OffAt ids
  rw [same]
  exact h

theorem OffAt.update {f : CredentialEntry → CredentialEntry} (h : OffAt m id)
    (keeps : ∀ e, (f e).id = e.id) (stays : ∀ e, Off e → Off (f e)) :
    OffAt (m.update id' f) id := by
  refine ⟨?_, fun e mem here => ?_⟩
  · rw [ids_update keeps]
    exact h.1
  · rcases mem_update mem with old | ⟨e₀, mem₀, -, rfl⟩
    · exact h.2 e old here
    · rw [keeps] at here
      exact stays e₀ (h.2 e₀ mem₀ here)

theorem OffAt.update_other {f : CredentialEntry → CredentialEntry} (h : OffAt m id)
    (keeps : ∀ e, (f e).id = e.id) (other : id ≠ id') : OffAt (m.update id' f) id := by
  refine ⟨?_, fun e mem here => ?_⟩
  · rw [ids_update keeps]
    exact h.1
  · rcases mem_update mem with old | ⟨e₀, -, there, rfl⟩
    · exact h.2 e old here
    · rw [keeps, there] at here
      exact absurd here.symm other

theorem OffAt.map {f : CredentialEntry → CredentialEntry} (h : OffAt m id)
    (keeps : ∀ e, (f e).id = e.id) (stays : ∀ e, Off e → Off (f e)) :
    OffAt { m with entries := m.entries.map f } id := by
  constructor
  · unfold ids
    rw [List.map_map]
    have same : (fun e : CredentialEntry => e.id) ∘ f = fun e => e.id := funext keeps
    rw [same]
    exact h.1
  · intro e mem here
    obtain ⟨e₀, mem₀, rfl⟩ := List.mem_map.mp mem
    rw [keeps] at here
    exact stays e₀ (h.2 e₀ mem₀ here)

theorem OffAt.heal (h : OffAt m id) : OffAt m.heal id := by
  apply OffAt.map h
  · intro e
    split_ifs <;> rfl
  · intro e off
    rw [if_neg off.2]
    exact off

theorem OffAt.onEnabled {report : CredentialEntry → MultiTokenManager × Bool} (h : OffAt m id)
    (others : id ≠ id' → ∀ e, OffAt (report e).1 id) : OffAt (m.onEnabled id' report).1 id := by
  unfold MultiTokenManager.onEnabled
  split
  · exact h
  · next e found =>
      split_ifs with disabled
      · exact h
      · refine others ?_ e
        rintro rfl
        have here : e.id = id := by simpa using List.find?_some found
        exact disabled (h.2 e (List.mem_of_find?_eq_some found) here).1

theorem OffAt.switchToBest (h : OffAt m id) : OffAt m.switchToBest id :=
  h.congr entries_switchToBest

theorem OffAt.settle {result : Except String MultiTokenManager} (h : OffAt m id)
    (done : ∀ m', result = .ok m' → OffAt m' id) : OffAt (settle m result) id := by
  cases result with
  | error e => exact h
  | ok m' => exact done m' rfl

private theorem editEntry_eq {f : CredentialEntry → CredentialEntry} {m' : MultiTokenManager}
    (ok : m.editEntry id' f = .ok m') : m' = m.update id' f := by
  unfold editEntry at ok
  split at ok
  · cases ok
  · cases ok
    rfl

theorem OffAt.editEntry {f : CredentialEntry → CredentialEntry} (h : OffAt m id)
    (keeps : ∀ e, (f e).id = e.id) (stays : ∀ e, Off e → Off (f e)) :
    OffAt (Tasks.settle m (m.editEntry id' f)) id := by
  apply h.settle
  intro m' ok
  rw [editEntry_eq ok]
  exact h.update keeps stays

theorem OffAt.unswitched {result : Except String MultiTokenManager} (h : OffAt m id) (id' : Nat)
    (refused : id' = id → result.isOk = false)
    (others : id ≠ id' → ∀ m', result = .ok m' → OffAt m' id) :
    OffAt (Tasks.settle m result) id := by
  apply h.settle
  intro m' ok
  by_cases here : id = id'
  · have := refused here.symm
    rw [ok] at this
    cases this
  · exact others here m' ok

theorem OffAt.filter {p : CredentialEntry → Bool} (h : OffAt m id)
    (kept : ∀ e, e.id = id → p e = true) :
    OffAt { m with entries := m.entries.filter p } id := by
  constructor
  · obtain ⟨e, mem, here⟩ := List.mem_map.mp h.1
    exact List.mem_map.mpr ⟨e, List.mem_filter.mpr ⟨mem, kept e here⟩, here⟩
  · intro e mem here
    exact h.2 e (List.mem_of_mem_filter mem) here

theorem OffAt.report (env : Env) (op : Operation) (h : OffAt m id)
    (reports : ∃ id' stamp, op = .reportFailure id' stamp ∨ op = .reportQuotaExhausted id' stamp ∨
      op = .reportRefreshFailure id' stamp ∨ op = .reportRefreshTokenInvalid id' stamp) :
    OffAt (op.apply env m) id := by
  have counted : ∀ {id' : Nat} {f : CredentialEntry → CredentialEntry},
      (∀ e, (f e).id = e.id) → id ≠ id' → OffAt (m.update id' f) id :=
    fun keeps other => h.update_other keeps other
  obtain ⟨id', stamp, rfl | rfl | rfl | rfl⟩ := reports
  · apply h.onEnabled
    intro other e
    dsimp only
    split_ifs
    · exact (counted (fun _ => by rfl) other).switchToBest
    · exact counted (fun _ => by rfl) other
  · apply h.onEnabled
    intro other e
    exact (counted (fun _ => by rfl) other).switchToBest
  · apply h.onEnabled
    intro other e
    dsimp only
    split_ifs
    · exact counted (fun _ => by rfl) other
    · exact (counted (fun _ => by rfl) other).switchToBest
  · apply h.onEnabled
    intro other e
    exact (counted (fun _ => by rfl) other).switchToBest

theorem OffAt.apply {s : System} {op : Operation} (h : OffAt s.manager id)
    (no_switch : switchOf id (s, .operation op) ≠ some false) :
    OffAt (op.apply env s.manager) id := by
  cases op with
  | reportSuccess id' stamp => exact h.update (fun _ => rfl) (fun _ off => off)
  | reportFailure id' stamp => exact h.report env _ ⟨id', stamp, .inl rfl⟩
  | reportQuotaExhausted id' stamp => exact h.report env _ ⟨id', stamp, .inr (.inl rfl)⟩
  | reportRefreshFailure id' stamp => exact h.report env _ ⟨id', stamp, .inr (.inr (.inl rfl))⟩
  | reportRefreshTokenInvalid id' stamp => exact h.report env _ ⟨id', stamp, .inr (.inr (.inr rfl))⟩
  | switchToNext =>
      apply h.congr
      simp only [Operation.apply, switchToNext]
      split <;> rfl
  | reportAccountThrottled id' now later cooldown =>
      exact h.update (fun _ => rfl) (fun _ off => off)
  | reportRateLimited id' now later cooldown =>
      have changed : OffAt (s.manager.update id' fun e =>
          { e with
            rateLimitedUntil := extend e.rateLimitedUntil (now + cooldown)
            totalFailureCount := e.totalFailureCount + 1 }) id :=
        h.update (fun _ => rfl) (fun _ off => off)
      apply changed.congr
      simp only [Operation.apply, reportRateLimited]
      repeat' split
      all_goals rfl
  | setDisabled id' disabled =>
      cases disabled with
      | true =>
          apply h.editEntry
          · intro e
            rfl
          · intro e off
            exact ⟨rfl, fun reason => by cases reason⟩
      | false =>
          apply h.unswitched id'
          · intro here
            subst here
            simpa [switchOf] using no_switch
          · intro other m' ok
            rw [editEntry_eq ok]
            exact h.update_other (fun _ => rfl) other
  | clearThrottle id' => exact h.editEntry (fun _ => rfl) (fun _ off => off)
  | disableQuotaExceeded id' =>
      apply h.editEntry
      · intro e
        rfl
      · intro e off
        exact ⟨rfl, fun reason => by cases reason⟩
  | setPriority id' _ | setEndpoint id' _ | updateCredential id' _ _ _ _
  | updateAuthMetadata id' _ => exact h.editEntry (fun _ => rfl) (fun _ off => off)
  | selectHighestPriority => exact h.congr entries_switchToBest
  | resetAndEnable id' =>
      apply h.unswitched id'
      · intro here
        subst here
        simpa [switchOf] using no_switch
      · intro other m' ok
        unfold resetAndEnable at ok
        repeat' split at ok
        all_goals cases ok
        exact h.update_other (fun _ => rfl) other
  | resetSuccessCount id' =>
      cases id' with
      | some id' => exact h.editEntry (fun _ => rfl) (fun _ off => off)
      | none => exact h.map (fun _ => rfl) (fun _ off => off)
  | deleteEntry id' =>
      apply h.unswitched id'
      · intro here
        subst here
        have kept : (s.manager.deleteEntry id').isOk = false := by
          simpa [switchOf] using no_switch
        cases deleted : s.manager.deleteEntry id' with
        | error e => rfl
        | ok r =>
            rw [deleted] at kept
            cases kept
      · intro other m' ok
        unfold deleteEntry at ok
        repeat' split at ok
        all_goals cases ok
        exact h.filter fun e here => by simpa [here] using other
  | resetCurrentIfEmpty =>
      apply h.congr
      simp only [Operation.apply, resetCurrentIfEmpty]
      split_ifs <;> rfl
  | updateRefreshToken id' token access expires =>
      apply h.settle
      intro m' ok
      unfold updateRefreshToken at ok
      dsimp only at ok
      repeat' split at ok
      all_goals first
        | cases ok
          exact h.update (fun _ => rfl) (fun _ off => off)
        | cases ok
  | setLoadBalancingMode mode =>
      apply h.settle
      intro m' ok
      unfold setLoadBalancingMode at ok
      split_ifs at ok
      cases ok
      exact h.congr rfl
  | updateGlobalConfigRuntime config => exact h.congr rfl

/-- The step of a request that takes the tokens of the credentials file over. -/
def Reloads (s : System) (a : Action) (id : Nat) : Prop :=
  ∃ t input attempt found, a = .task t input ∧ s.tasks t = .reloading attempt id found

def Adds (s : System) (a : Action) (id : Nat) : Prop :=
  ∃ t input credentials, a = .task t input ∧ s.tasks t = .addPushing id credentials

/-- A task that neither reloads the entry nor adds one of its id leaves it off. -/
theorem OffAt.stepTask {t : Nat} {input : Input} {lock : Option Nat} {task : Task} {next : Next}
    (h : OffAt m id) (step : stepTask env t input m lock task = some next)
    (no_reload : ∀ attempt found, task ≠ .reloading attempt id found)
    (no_twin : ∀ credentials, task ≠ .addPushing id credentials) :
    OffAt next.manager id := by
  cases task with
  | healing a =>
      simp only [Tasks.stepTask] at step
      split_ifs at step
      · cases step
        exact h.heal
      · cases step
        exact h
  | refreshing p id' snapshot =>
      simp only [Tasks.stepTask] at step
      repeat' split at step
      all_goals cases step
      all_goals first
        | exact h
        | exact h.update (fun _ => rfl) (fun _ off => off)
  | forceRefreshing id' snapshot =>
      simp only [Tasks.stepTask] at step
      split at step
      · cases step
        exact h
      · rename_i new _
        cases step
        have written : OffAt (writeBack m id' new) id := h.update (fun _ => rfl) (fun _ off => off)
        exact written.update (fun _ => rfl) (fun _ off => off)
  | settingProfile a id' c token arn | fillingTitle id' answer =>
      simp only [Tasks.stepTask] at step
      split at step
      · cases step
        exact h
      · cases step
        exact h.update (fun _ => rfl) (fun _ off => off)
  | fillingEmail id' answer =>
      simp only [Tasks.stepTask] at step
      split at step
      · cases step
        exact h
      · cases step
        exact h.update (fun _ => rfl) (fun _ off => off)
  | finishing a id' c token =>
      cases step
      exact h.update (fun _ => rfl) (fun _ off => off)
  | reloading a id' found =>
      cases step
      have other : id ≠ id' := by
        rintro rfl
        exact no_reload a found rfl
      exact h.update_other (fun _ => rfl) other
  | reportingInvalid a id' =>
      cases step
      exact h.report env (.reportRefreshTokenInvalid id' input.stamp)
        ⟨id', input.stamp, .inr (.inr (.inr rfl))⟩
  | reportingFailure a id' =>
      cases step
      exact h.report env (.reportRefreshFailure id' input.stamp)
        ⟨id', input.stamp, .inr (.inr (.inl rfl))⟩
  | addPushing id' c =>
      cases step
      constructor
      · unfold ids
        rw [List.map_append]
        exact List.mem_append_left _ h.1
      · intro e mem here
        rcases List.mem_append.mp mem with old | new
        · exact h.2 e old here
        · rw [List.mem_singleton.mp new] at here
          exact absurd (by rw [← here]) (no_twin c)
  | _ =>
      simp only [Tasks.stepTask] at step
      repeat' split at step
      all_goals first
        | cases step
          exact h
        | cases step

theorem off_of_mem_updateFirst {f : CredentialEntry → CredentialEntry} (sets : ∀ e, Off (f e))
    (es : List CredentialEntry) (alone : (es.map (·.id)).count id ≤ 1) :
    ∀ e ∈ updateFirst id f es, e.id = id → Off e := by
  induction es with
  | nil =>
      intro e mem
      cases mem
  | cons e₁ es ih =>
      intro e mem here
      rw [List.map_cons, List.count_cons] at alone
      unfold updateFirst at mem
      split_ifs at mem with first
      · rcases List.mem_cons.mp mem with rfl | later
        · exact sets e₁
        · have twin : 0 < (es.map (·.id)).count id :=
            List.count_pos_iff.mpr (List.mem_map.mpr ⟨e, later, here⟩)
          have counted : (e₁.id == id) = true := by simpa using first
          rw [if_pos counted] at alone
          omega
      · rcases List.mem_cons.mp mem with rfl | later
        · exact absurd here first
        · exact ih (by omega) e later here

theorem offAt_setDisabled {m' : MultiTokenManager} (ok : m.setDisabled id true = .ok m')
    (alone : (ids m).count id ≤ 1) : OffAt m' id := by
  have exists_entry : id ∈ ids m := by
    unfold setDisabled MultiTokenManager.editEntry at ok
    cases found : m.find id with
    | none =>
        rw [found] at ok
        cases ok
    | some e =>
        have here : e.id = id := by simpa using List.find?_some found
        exact List.mem_map.mpr ⟨e, List.mem_of_find?_eq_some found, here⟩
  rw [editEntry_eq ok]
  refine ⟨?_, ?_⟩
  · rw [ids_update fun e => by split_ifs <;> rfl]
    exact exists_entry
  · refine off_of_mem_updateFirst ?_ m.entries alone
    intro e
    rw [if_pos rfl]
    exact ⟨rfl, fun reason => by cases reason⟩

/-- While an entry is switched off, no request reloads it from the file and no entry of its id is
added; and what is switched off is the only entry of its id. -/
def KeepsOff : List (System × Action) → Prop
  | [] => True
  | (s, a) :: earlier =>
      KeepsOff earlier ∧ (∀ id, SwitchedOff id earlier → ¬ Reloads s a id ∧ ¬ Adds s a id) ∧
        ∀ id, a = .operation (.setDisabled id true) → (ids s.manager).count id ≤ 1

theorem switchOf_eq_true {s : System} {a : Action} (off : switchOf id (s, a) = some true) :
    ∃ m', a = .operation (.setDisabled id true) ∧ s.manager.setDisabled id true = .ok m' := by
  cases a with
  | operation op =>
      cases op with
      | setDisabled id' disabled =>
          simp only [switchOf, Option.ite_none_right_eq_some, Option.some.injEq] at off
          obtain ⟨⟨rfl, done⟩, rfl⟩ := off
          cases ok : s.manager.setDisabled id' true with
          | error e =>
              rw [ok] at done
              cases done
          | ok m' => exact ⟨m', rfl, rfl⟩
      | resetAndEnable id' | deleteEntry id' =>
          simp only [switchOf, Option.ite_none_right_eq_some, Option.some.injEq, Bool.false_eq_true,
            and_false] at off
      | _ => cases off
  | _ => cases off

theorem offAt_step {s s' : System} {a : Action} {trace : List (System × Action)}
    (inv : ∀ id, SwitchedOff id trace → OffAt s.manager id) (keeps : KeepsOff ((s, a) :: trace))
    (step : s.step env a = some s') (id : Nat) (off : SwitchedOff id ((s, a) :: trace)) :
    OffAt s'.manager id := by
  obtain ⟨-, quiet, alone⟩ := keeps
  unfold SwitchedOff at off
  rw [List.findSome?_cons] at off
  cases switch : switchOf id (s, a) with
  | some b =>
      rw [switch] at off
      cases off
      obtain ⟨m', rfl, ok⟩ := switchOf_eq_true switch
      cases step
      show OffAt (settle s.manager (s.manager.setDisabled id true)) id
      rw [ok]
      exact offAt_setDisabled ok (alone id rfl)
  | none =>
      rw [switch] at off
      have before := inv id off
      obtain ⟨no_reload, no_twin⟩ := quiet id off
      cases a with
      | start t call =>
          simp only [System.step] at step
          split_ifs at step
          cases step
          exact before
      | task t input =>
          obtain ⟨next, taken, rfl⟩ := Option.map_eq_some_iff.mp step
          refine before.stepTask taken ?_ ?_
          · intro attempt found stands
            exact no_reload ⟨t, input, attempt, found, rfl, stands⟩
          · intro credentials stands
            exact no_twin ⟨t, input, credentials, rfl, stands⟩
      | drop t =>
          simp only [System.step] at step
          split_ifs at step
          cases step
          exact before
      | operation op =>
          cases step
          refine before.apply ?_
          rw [switch]
          exact fun eq => by cases eq

theorem offAt_run {trace : List (System × Action)} {s : System} (run : PoolRun env m trace s)
    (keeps : KeepsOff trace) : ∀ id, SwitchedOff id trace → OffAt s.manager id := by
  induction run with
  | nil =>
      intro id off
      cases off
  | cons run taken ih => exact offAt_step (ih keeps.1) keeps taken

theorem pickedEntry_enabled {now : Nat} {task : Task} {e : CredentialEntry}
    (picked : pickedEntry env m now task = some e) : e ∈ m.entries ∧ e.disabled = false := by
  cases task with
  | stickyCheck a =>
      have test := List.find?_some picked
      simp only [Bool.and_eq_true, Bool.not_eq_true'] at test
      exact ⟨List.mem_of_find?_eq_some picked, test.1.1.2⟩
  | selecting a | reselecting a =>
      obtain ⟨mem, eligible⟩ := eligible_of_selectNextCredential picked
      exact ⟨mem, eligible.enabled⟩
  | _ => cases picked

/-- An entry that the administrator switched off is there, is disabled and is not picked, in every
run in which no request reloads it and no twin of it is added. -/
theorem switchedOff_stays (env : Env) (m : MultiTokenManager) (trace : List (System × Action))
    (s : System) (run : PoolRun env m trace s) (keeps : KeepsOff trace) (id : Nat)
    (off : SwitchedOff id trace) :
    id ∈ ids s.manager ∧ (∀ e ∈ s.manager.entries, e.id = id → e.disabled = true) ∧
      ∀ t now e, pickedEntry env s.manager now (s.tasks t) = some e → e.id ≠ id := by
  obtain ⟨there, all⟩ := offAt_run run keeps id off
  refine ⟨there, fun e mem here => (all e mem here).1, ?_⟩
  intro t now e picked here
  obtain ⟨mem, enabled⟩ := pickedEntry_enabled picked
  rw [(all e mem here).1] at enabled
  cases enabled

def rotated : List KiroCredentials := [{ refreshToken := some "rotated" }]

private theorem oauth_rejected :
    refreshToken oauth (.error (.invalid "invalid_grant")) = .error (.invalid "invalid_grant") := by
  decide +kernel

/-- The refresh token of the only entry is rejected, the administrator switches the entry off, and
the request finds a new token in the file. -/
theorem reload_switches_on :
    ¬ ∀ (env : Env) (m : MultiTokenManager) (trace : List (System × Action)) (s : System),
      PoolRun env m trace s → ∀ id, SwitchedOff id trace →
        ∀ e ∈ s.manager.entries, e.id = id → e.disabled = true := by
  intro claim
  obtain ⟨trace, s, run, off, entry⟩ : ∃ trace s, PoolRun plainEnv single trace s ∧
      SwitchedOff 1 trace ∧ ∃ e ∈ s.manager.entries, e.id = 1 ∧ e.disabled = false := by
    have asked : ∃ trace s, PoolRun plainEnv single trace s ∧
        s.manager = single ∧ s.tasks 0 = .refreshing (.acquire ⟨none, 0, 1⟩) 1 oauth :=
      ⟨_, _, .cons (a := .task 0 {}) (.cons (a := .task 0 {}) (.cons (a := .task 0 {})
        (.cons (a := .task 0 {}) (.cons (a := .task 0 {})
          (.cons (a := .start 0 (.acquireContext none)) .nil rfl) rfl) rfl) rfl) rfl) rfl,
        rfl, rfl⟩
    obtain ⟨trace, s, run, same, stands⟩ := asked
    have rejected : s.step plainEnv (.task 0 { refresh := .error (.invalid "invalid_grant") }) =
        some ⟨single, none,
          Function.update s.tasks 0 (.recovering ⟨none, 0, 1⟩ 1)⟩ := by
      simp only [System.step, stands, same, stepTask, oauth_rejected]
      rfl
    have switched := run.cons rejected |>.cons (a := .operation (.setDisabled 1 true)) rfl
    have found := switched.cons (a := .task 0 { file := some rotated }) rfl
    refine ⟨_, _, found.cons (a := .task 0 {}) rfl, ?_, _, List.mem_cons_self, rfl, rfl⟩
    show (if 1 = 1 ∧ (single.setDisabled 1 true).isOk = true then some true else none) = some true
    exact if_pos ⟨rfl, by decide +kernel⟩
  obtain ⟨e, mem, here, enabled⟩ := entry
  rw [claim _ _ _ _ run 1 off e mem here] at enabled
  cases enabled

instance (id : Nat) (trace : List (System × Action)) : Decidable (SwitchedOff id trace) :=
  inferInstanceAs (Decidable (_ = some true))

def keepsCheck (earlier : List (System × Action)) (p : System × Action) : Bool :=
  match p.2 with
  | .task t _ =>
    match p.1.tasks t with
    | .reloading _ id _ | .addPushing id _ => !decide (SwitchedOff id earlier)
    | _ => true
  | .operation (.setDisabled id true) => decide ((ids p.1.manager).count id ≤ 1)
  | _ => true

def keepsOffCheck : List (System × Action) → Bool
  | [] => true
  | p :: earlier => keepsCheck earlier p && keepsOffCheck earlier

theorem keepsOff_of_check {trace : List (System × Action)} (checked : keepsOffCheck trace = true) :
    KeepsOff trace := by
  induction trace with
  | nil => trivial
  | cons p earlier ih =>
    obtain ⟨here, before⟩ := Bool.and_eq_true_iff.mp checked
    refine ⟨ih before, fun id off => ⟨?_, ?_⟩, ?_⟩
    · rintro ⟨t, input, attempt, found, eq, stands⟩
      rw [keepsCheck, eq] at here
      simp only [stands, off, decide_true, Bool.not_true, Bool.false_eq_true] at here
    · rintro ⟨t, input, credentials, eq, stands⟩
      rw [keepsCheck, eq] at here
      simp only [stands, off, decide_true, Bool.not_true, Bool.false_eq_true] at here
    · intro id eq
      rw [keepsCheck, eq] at here
      exact of_decide_eq_true here

def threeAccounts : MultiTokenManager :=
  { single with
    entries := [{ id := 1, credentials := { oauth with id := some 1 } },
      { id := 2, credentials := { oauth with
          id := some 2
          priority := 1
          refreshToken := some (String.ofList (List.replicate 100 's')) } },
      { id := 3, credentials := { id := some 3, kiroApiKey := some "ksk_3", priority := 2 } }] }

/-- The first account is switched off while its token is refreshed for a request. The refresh
fails, and so does what was sent for other requests; the request goes on with the second account,
which it reloads from the file, and the next request selects while the quota of the second is
used up. -/
def busySwitch : List Action :=
  .start 0 (.acquireContext none) :: List.replicate 5 (.task 0 {}) ++
    [.operation (.setDisabled 1 true), .task 0 {}, .task 0 {}, .operation (.reportFailure 1 "now"),
      .operation (.reportRefreshTokenInvalid 1 "now")] ++ List.replicate 7 (.task 0 {}) ++
    [.task 0 { refresh := .error (.invalid "invalid_grant") },
      .task 0 { file := some [{ id := some 2, refreshToken := some "rotated" }] }, .task 0 {},
      .operation (.disableQuotaExceeded 2), .start 1 (.acquireContext none), .task 1 {}, .task 1 {}]

theorem busySwitch_run :
    ((follow (System.step plainEnv) [] (System.initial threeAccounts) busySwitch).any
      fun reached => keepsOffCheck reached.1 && decide (SwitchedOff 1 reached.1) &&
        decide (reached.2.tasks 0 = .loopHead ⟨none, 1, 3⟩) &&
        decide ((reached.2.manager.find 2).map (·.credentials.refreshToken) =
          some (some "rotated")) &&
        decide ((pickedEntry plainEnv reached.2.manager 0 (reached.2.tasks 1)).isSome = true)) =
      true := by
  decide +kernel

theorem switchedOff_stays_busy : ∃ trace s e, PoolRun plainEnv threeAccounts trace s ∧
    SwitchedOff 1 trace ∧ s.tasks 0 = .loopHead ⟨none, 1, 3⟩ ∧
    (s.manager.find 2).map (·.credentials.refreshToken) = some (some "rotated") ∧
    (∀ e ∈ s.manager.entries, e.id = 1 → e.disabled = true) ∧
    pickedEntry plainEnv s.manager 0 (s.tasks 1) = some e ∧ e.id ≠ 1 := by
  obtain ⟨trace, s, run, -, holds⟩ := exists_run_of_follow busySwitch_run
  simp only [Bool.and_eq_true, decide_eq_true_eq] at holds
  obtain ⟨⟨⟨⟨checked, off⟩, stands⟩, reloaded⟩, picks⟩ := holds
  obtain ⟨-, disabled, others⟩ :=
    switchedOff_stays plainEnv threeAccounts trace s run (keepsOff_of_check checked) 1 off
  obtain ⟨e, picked⟩ := Option.isSome_iff_exists.mp picks
  exact ⟨trace, s, e, run, off, stands, reloaded, disabled, picked, others 1 0 e picked⟩

end KiroRs.Pool.ManualDisable
