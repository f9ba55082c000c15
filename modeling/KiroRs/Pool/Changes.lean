/- Path: KiroRs/Pool/Changes
   source: src/kiro/token_manager.rs
   digest: What one step can do to one entry of the pool, and to the list of the entries. -/

import Mathlib.Data.List.Forall2
import KiroRs.Pool.ManualDisable

set_option autoImplicit false
set_option relaxedAutoImplicit false

namespace KiroRs.Pool.Changes

open KiroRs.Lib.Traces
open KiroRs.Pool.Credentials
open KiroRs.Pool.Manager
open KiroRs.Pool.Manager.MultiTokenManager
open KiroRs.Pool.Tasks
open KiroRs.Pool.RefreshInterleaving

/-- Only fields that say nothing about who the credential is or what it is authorised by. -/
structure SameIdentity (c c' : KiroCredentials) : Prop where
  id : c'.id = c.id
  kiroApiKey : c'.kiroApiKey = c.kiroApiKey
  refreshToken : c'.refreshToken = c.refreshToken

/-- A failed refresh of the entry is reported, by the step of a request or by an operation. -/
def ReportsRefreshFailure (s : System) (a : Action) (id : Nat) : Prop :=
  (∃ stamp, a = .operation (.reportRefreshFailure id stamp)) ∨
    ∃ t input attempt, a = .task t input ∧ s.tasks t = .reportingFailure attempt id

def ReportsInvalid (s : System) (a : Action) (id : Nat) : Prop :=
  (∃ stamp, a = .operation (.reportRefreshTokenInvalid id stamp)) ∨
    ∃ t input attempt, a = .task t input ∧ s.tasks t = .reportingInvalid attempt id

/-- The operations that only move the cooldowns of an entry. -/
def coolsId : Operation → Option Nat
  | .reportAccountThrottled id _ _ _ | .reportRateLimited id _ _ _ | .clearThrottle id => some id
  | _ => none

inductive Change (env : Env) (s : System) (a : Action) : CredentialEntry → CredentialEntry → Prop
    where
  | same (e : CredentialEntry) : Change env s a e e
  | succeeded (e : CredentialEntry) (stamp : String)
      (cause : a = .operation (.reportSuccess e.id stamp)) :
      Change env s a e
        { e with
          failureCount := 0
          refreshFailureCount := 0
          successCount := e.successCount + 1
          lastUsedAt := some stamp
          throttledUntil := none
          rateLimitedUntil := none }
  | failed (e : CredentialEntry) (stamp : String)
      (cause : a = .operation (.reportFailure e.id stamp)) (enabled : e.disabled = false)
      (below : e.failureCount + 1 < maxFailuresPerCredential) :
      Change env s a e
        { e with
          failureCount := e.failureCount + 1
          totalFailureCount := e.totalFailureCount + 1
          lastUsedAt := some stamp }
  | shutDown (e : CredentialEntry) (stamp : String)
      (cause : a = .operation (.reportFailure e.id stamp)) (enabled : e.disabled = false)
      (reached : maxFailuresPerCredential ≤ e.failureCount + 1) :
      Change env s a e
        { e with
          failureCount := e.failureCount + 1
          totalFailureCount := e.totalFailureCount + 1
          lastUsedAt := some stamp
          disabled := true
          disabledReason := some .tooManyFailures }
  | quotaExhausted (e : CredentialEntry) (stamp : String)
      (cause : a = .operation (.reportQuotaExhausted e.id stamp)) (enabled : e.disabled = false) :
      Change env s a e
        { e with
          disabled := true
          disabledReason := some .quotaExceeded
          lastUsedAt := some stamp
          failureCount := maxFailuresPerCredential
          totalFailureCount := e.totalFailureCount + 1 }
  | refreshFailed (e : CredentialEntry) (stamp : String) (cause : ReportsRefreshFailure s a e.id)
      (enabled : e.disabled = false)
      (below : e.refreshFailureCount + 1 < maxFailuresPerCredential) :
      Change env s a e
        { e with lastUsedAt := some stamp, refreshFailureCount := e.refreshFailureCount + 1 }
  | refreshShutDown (e : CredentialEntry) (stamp : String)
      (cause : ReportsRefreshFailure s a e.id) (enabled : e.disabled = false)
      (reached : maxFailuresPerCredential ≤ e.refreshFailureCount + 1) :
      Change env s a e
        { e with
          lastUsedAt := some stamp
          refreshFailureCount := e.refreshFailureCount + 1
          disabled := true
          disabledReason := some .tooManyRefreshFailures }
  | tokenInvalid (e : CredentialEntry) (stamp : String) (cause : ReportsInvalid s a e.id)
      (enabled : e.disabled = false) :
      Change env s a e
        { e with
          lastUsedAt := some stamp
          disabled := true
          disabledReason := some .invalidRefreshToken }
  | cooled (e : CredentialEntry) (op : Operation) (throttled limited : Option Nat) (total : Nat)
      (cause : a = .operation op) (cools : coolsId op = some e.id) :
      Change env s a e
        { e with
          throttledUntil := throttled
          rateLimitedUntil := limited
          totalFailureCount := total }
  | uncounted (e : CredentialEntry) (id : Option Nat)
      (cause : a = .operation (.resetSuccessCount id)) :
      Change env s a e { e with successCount := 0 }
  | switchedOff (e : CredentialEntry) (cause : a = .operation (.setDisabled e.id true)) :
      Change env s a e { e with disabled := true, disabledReason := some .manual }
  | switchedOn (e : CredentialEntry) (cause : a = .operation (.setDisabled e.id false)) :
      Change env s a e
        { e with
          disabled := false
          failureCount := 0
          refreshFailureCount := 0
          disabledReason := none
          throttledUntil := none
          rateLimitedUntil := none }
  | quotaMarked (e : CredentialEntry) (cause : a = .operation (.disableQuotaExceeded e.id)) :
      Change env s a e { e with disabled := true, disabledReason := some .quotaExceeded }
  | edited (e : CredentialEntry) (c : KiroCredentials) (cause : Edits s a e.id)
      (identity : SameIdentity e.credentials c) :
      Change env s a e { e with credentials := c }
  | reset (e : CredentialEntry) (cause : a = .operation (.resetAndEnable e.id))
      (valid : e.disabledReason ≠ some .invalidConfig) :
      Change env s a e
        { e with
          failureCount := 0
          totalFailureCount := 0
          refreshFailureCount := 0
          disabled := false
          disabledReason := none
          throttledUntil := none }
  | retokened (e : CredentialEntry) (token : String) (access expires : Option String)
      (cause : a = .operation (.updateRefreshToken e.id token access expires))
      (accepted : (s.manager.updateRefreshToken env e.id token access expires).isOk = true)
      (disabled : e.disabled = true) :
      Change env s a e
        { e with
          credentials := { e.credentials with
            refreshToken := some token
            accessToken := access
            expiresAt := expires }
          refreshFailureCount := 0 }
  | written (e : CredentialEntry) (t : Nat) (input : Input) (purpose : Purpose)
      (snapshot new : KiroCredentials) (cause : a = .task t input)
      (stands : s.tasks t = .refreshing purpose e.id snapshot)
      (answer : refreshToken snapshot input.refresh = .ok new) :
      Change env s a e { e with credentials := new }
  | forced (e : CredentialEntry) (t : Nat) (input : Input) (snapshot new : KiroCredentials)
      (cause : a = .task t input) (stands : s.tasks t = .forceRefreshing e.id snapshot)
      (answer : refreshToken snapshot input.refresh = .ok new) :
      Change env s a e { e with credentials := new, refreshFailureCount := 0 }
  | ensured (e : CredentialEntry) (t : Nat) (input : Input) (attempt : Attempt)
      (c : KiroCredentials) (token : String) (cause : a = .task t input)
      (stands : s.tasks t = .finishing attempt e.id c token) :
      Change env s a e { e with refreshFailureCount := 0 }
  | healed (e : CredentialEntry) (t : Nat) (input : Input) (attempt : Attempt)
      (cause : a = .task t input) (stands : s.tasks t = .healing attempt)
      (failures : e.disabledReason = some .tooManyFailures) :
      Change env s a e { e with disabled := false, disabledReason := none, failureCount := 0 }
  | reloaded (e : CredentialEntry) (t : Nat) (input : Input) (attempt : Attempt)
      (found : KiroCredentials) (cause : a = .task t input)
      (stands : s.tasks t = .reloading attempt e.id found) :
      Change env s a e
        { e with
          credentials := { e.credentials with
            refreshToken := found.refreshToken
            accessToken := found.accessToken
            expiresAt := found.expiresAt }
          disabled := false
          disabledReason := none
          refreshFailureCount := 0
          failureCount := 0 }

theorem Change.id_eq {env : Env} {s : System} {a : Action} {e e' : CredentialEntry}
    (change : Change env s a e e') : e'.id = e.id := by
  cases change <;> rfl

variable {env : Env} {s : System} {a : Action} {m : MultiTokenManager} {id : Nat}

theorem forall₂_updateFirst {R : CredentialEntry → CredentialEntry → Prop}
    {f : CredentialEntry → CredentialEntry} (refl : ∀ e, R e e) (es : List CredentialEntry)
    (changes : ∀ e, es.find? (·.id == id) = some e → R e (f e)) :
    List.Forall₂ R es (updateFirst id f es) := by
  induction es with
  | nil => exact .nil
  | cons e es ih =>
      unfold updateFirst
      split_ifs with here
      · have first : (e :: es).find? (·.id == id) = some e := by
          rw [List.find?_cons, beq_iff_eq.mpr here]
        exact .cons (changes e first) (List.forall₂_same.mpr fun e _ => refl e)
      · refine .cons (refl e) (ih ?_)
        intro e' found
        apply changes
        rw [List.find?_cons, beq_false_of_ne here]
        exact found

theorem forall₂_same_entries {m' : MultiTokenManager} (same : m'.entries = m.entries) :
    List.Forall₂ (Change env s a) m.entries m'.entries := by
  rw [same]
  exact List.forall₂_same.mpr fun e _ => .same e

theorem forall₂_update {f : CredentialEntry → CredentialEntry}
    (changes : ∀ e, e.id = id → m.find id = some e → Change env s a e (f e)) :
    List.Forall₂ (Change env s a) m.entries (m.update id f).entries := by
  refine forall₂_updateFirst (fun e => .same e) m.entries ?_
  intro e found
  have here : e.id = id := by simpa using List.find?_some found
  exact changes e here found

theorem forall₂_settle {result : Except String MultiTokenManager}
    (changes : ∀ m', result = .ok m' → List.Forall₂ (Change env s a) m.entries m'.entries) :
    List.Forall₂ (Change env s a) m.entries (settle m result).entries := by
  cases result with
  | error e => exact forall₂_same_entries rfl
  | ok m' => exact changes m' rfl

theorem forall₂_editEntry {f : CredentialEntry → CredentialEntry}
    (changes : ∀ e, e.id = id → Change env s a e (f e)) :
    List.Forall₂ (Change env s a) m.entries (settle m (m.editEntry id f)).entries := by
  apply forall₂_settle
  intro m' ok
  unfold editEntry at ok
  split at ok
  · cases ok
  · cases ok
    exact forall₂_update fun e here _ => changes e here

theorem forall₂_onEnabled {report : CredentialEntry → MultiTokenManager × Bool}
    (changes : ∀ e, m.find id = some e → e.disabled = false →
      List.Forall₂ (Change env s a) m.entries (report e).1.entries) :
    List.Forall₂ (Change env s a) m.entries (m.onEnabled id report).1.entries := by
  unfold onEnabled
  split
  · exact forall₂_same_entries rfl
  · next e found =>
    split_ifs with disabled
    · exact forall₂_same_entries rfl
    · exact changes e found (Bool.not_eq_true _ ▸ disabled)

theorem forall₂_switchToBest {es : List CredentialEntry}
    (changes : List.Forall₂ (Change env s a) es m.entries) :
    List.Forall₂ (Change env s a) es m.switchToBest.entries := by
  rw [entries_switchToBest]
  exact changes

theorem forall₂_reportFailure {stamp : String} (cause : a = .operation (.reportFailure id stamp)) :
    List.Forall₂ (Change env s a) m.entries (m.reportFailure id stamp).1.entries := by
  apply forall₂_onEnabled
  intro e found enabled
  dsimp only
  split_ifs with reached
  · apply forall₂_switchToBest
    apply forall₂_update
    intro e' here found'
    rw [found] at found'
    cases found'
    subst here
    exact .shutDown e stamp cause enabled reached
  · apply forall₂_update
    intro e' here found'
    rw [found] at found'
    cases found'
    subst here
    exact .failed e stamp cause enabled (Nat.lt_of_not_le reached)

theorem forall₂_reportQuotaExhausted {stamp : String}
    (cause : a = .operation (.reportQuotaExhausted id stamp)) :
    List.Forall₂ (Change env s a) m.entries (m.reportQuotaExhausted id stamp).1.entries := by
  apply forall₂_onEnabled
  intro e found enabled
  apply forall₂_switchToBest
  apply forall₂_update
  intro e' here found'
  rw [found] at found'
  cases found'
  subst here
  exact .quotaExhausted e stamp cause enabled

theorem forall₂_reportRefreshFailure {stamp : String} (cause : ReportsRefreshFailure s a id) :
    List.Forall₂ (Change env s a) m.entries (m.reportRefreshFailure id stamp).1.entries := by
  apply forall₂_onEnabled
  intro e found enabled
  dsimp only
  split_ifs with below
  · apply forall₂_update
    intro e' here found'
    rw [found] at found'
    cases found'
    subst here
    exact .refreshFailed e stamp cause enabled below
  · apply forall₂_switchToBest
    apply forall₂_update
    intro e' here found'
    rw [found] at found'
    cases found'
    subst here
    exact .refreshShutDown e stamp cause enabled (Nat.le_of_not_lt below)

theorem forall₂_reportRefreshTokenInvalid {stamp : String} (cause : ReportsInvalid s a id) :
    List.Forall₂ (Change env s a) m.entries (m.reportRefreshTokenInvalid id stamp).1.entries := by
  apply forall₂_onEnabled
  intro e found enabled
  apply forall₂_switchToBest
  apply forall₂_update
  intro e' here found'
  rw [found] at found'
  cases found'
  subst here
  exact .tokenInvalid e stamp cause enabled

theorem find_of_findIdx? {idx : Nat} (position : m.entries.findIdx? (·.id == id) = some idx) :
    m.find id = m.entries[idx]? := by
  unfold find
  rw [List.find?_eq_getElem?_findIdx, (List.findIdx?_eq_some_iff_findIdx_eq.mp position).2]

theorem updateRefreshToken_ok {token : String} {access expires : Option String}
    {m' : MultiTokenManager} (ok : m.updateRefreshToken env id token access expires = .ok m') :
    ∃ idx e, m.entries.findIdx? (·.id == id) = some idx ∧ m.find id = some e ∧
      e.disabled = true ∧
      ((m.entries.eraseIdx idx).any fun e =>
        e.credentials.refreshToken.any (env.sha256Hex · == env.sha256Hex token)) = false ∧
      m' = m.update id fun e =>
        { e with
          credentials := { e.credentials with
            refreshToken := some token
            accessToken := access
            expiresAt := expires }
          refreshFailureCount := 0 } := by
  unfold updateRefreshToken at ok
  dsimp only at ok
  split at ok
  · cases ok
  · next idx position =>
    split at ok
    · cases ok
    · next e there =>
      split_ifs at ok with enabled duplicate
      · split at ok
        · cases ok
        · cases ok
      · split at ok
        · cases ok
        · cases ok
          refine ⟨idx, e, position, ?_, ?_, Bool.not_eq_true _ ▸ duplicate, rfl⟩
          · rw [find_of_findIdx? position, there]
          · simpa using enabled

/-- What an operation other than a deletion does to the entries. -/
theorem forall₂_apply {op : Operation} (cause : a = .operation op)
    (kept : ∀ id, op ≠ .deleteEntry id) :
    List.Forall₂ (Change env s a) s.manager.entries (op.apply env s.manager).entries := by
  cases op with
  | reportSuccess id stamp =>
      apply forall₂_update
      rintro e rfl found
      exact .succeeded e stamp cause
  | reportFailure id stamp => exact forall₂_reportFailure cause
  | reportQuotaExhausted id stamp => exact forall₂_reportQuotaExhausted cause
  | reportRefreshFailure id stamp => exact forall₂_reportRefreshFailure (.inl ⟨stamp, cause⟩)
  | reportRefreshTokenInvalid id stamp =>
      exact forall₂_reportRefreshTokenInvalid (.inl ⟨stamp, cause⟩)
  | switchToNext =>
      apply forall₂_same_entries
      simp only [Operation.apply, switchToNext]
      split <;> rfl
  | reportAccountThrottled id now later cooldown =>
      apply forall₂_update
      rintro e rfl found
      exact .cooled e _ _ e.rateLimitedUntil _ cause rfl
  | reportRateLimited id now later cooldown =>
      have changed : List.Forall₂ (Change env s a) s.manager.entries (s.manager.update id fun e =>
          { e with
            rateLimitedUntil := extend e.rateLimitedUntil (now + cooldown)
            totalFailureCount := e.totalFailureCount + 1 }).entries := by
        apply forall₂_update
        rintro e rfl found
        exact .cooled e _ e.throttledUntil _ _ cause rfl
      simp only [Operation.apply, reportRateLimited]
      repeat' split
      all_goals exact changed
  | setDisabled id disabled =>
      apply forall₂_editEntry
      rintro e rfl
      cases disabled with
      | true => exact .switchedOff e cause
      | false => exact .switchedOn e cause
  | clearThrottle id =>
      apply forall₂_editEntry
      rintro e rfl
      exact .cooled e _ none none e.totalFailureCount cause rfl
  | disableQuotaExceeded id =>
      apply forall₂_editEntry
      rintro e rfl
      exact .quotaMarked e cause
  | setPriority id _ | setEndpoint id _ | updateCredential id _ _ _ _ | updateAuthMetadata id _ =>
      apply forall₂_editEntry
      rintro e rfl
      refine .edited e _ ?_ ⟨rfl, rfl, rfl⟩
      rw [cause]
      rfl
  | selectHighestPriority => exact forall₂_same_entries entries_switchToBest
  | resetAndEnable id =>
      apply forall₂_settle
      intro m' ok
      unfold resetAndEnable at ok
      split at ok
      · cases ok
      · next e found =>
        split_ifs at ok with invalid
        cases ok
        apply forall₂_update
        intro e' here found'
        rw [found] at found'
        cases found'
        subst here
        exact .reset e cause invalid
  | resetSuccessCount id =>
      cases id with
      | some id =>
          apply forall₂_editEntry
          intro e _
          exact .uncounted e _ cause
      | none =>
          show List.Forall₂ _ s.manager.entries (s.manager.entries.map fun e => { e with successCount := 0 })
          rw [List.forall₂_map_right_iff]
          exact List.forall₂_same.mpr fun e _ => .uncounted e _ cause
  | deleteEntry id => exact absurd rfl (kept id)
  | resetCurrentIfEmpty =>
      apply forall₂_same_entries
      simp only [Operation.apply, resetCurrentIfEmpty]
      split_ifs <;> rfl
  | updateRefreshToken id token access expires =>
      apply forall₂_settle
      intro m' ok
      obtain ⟨idx, e, -, found, disabled, -, rfl⟩ := updateRefreshToken_ok ok
      apply forall₂_update
      intro e' here found'
      rw [found] at found'
      cases found'
      subst here
      exact .retokened e token access expires cause (by rw [ok]; rfl) disabled
  | setLoadBalancingMode mode =>
      apply forall₂_settle
      intro m' ok
      unfold setLoadBalancingMode at ok
      split_ifs at ok
      cases ok
      exact forall₂_same_entries rfl
  | updateGlobalConfigRuntime config => exact forall₂_same_entries rfl

/-- What a task's step does to the entries, unless it adds one. -/
theorem forall₂_stepTask {t : Nat} {input : Input} {lock : Option Nat} {task : Task} {next : Next}
    (cause : a = .task t input) (stands : s.tasks t = task)
    (step : stepTask env t input m lock task = some next)
    (kept : ∀ id c, task ≠ .addPushing id c) :
    List.Forall₂ (Change env s a) m.entries next.manager.entries := by
  have edits : ∀ id, writtenId task = some id → Edits s a id := by
    intro id writes
    rw [cause]
    show writtenId (s.tasks t) = some id
    rw [stands, writes]
  cases task with
  | healing att =>
      simp only [stepTask] at step
      split_ifs at step
      · cases step
        show List.Forall₂ _ m.entries (m.entries.map _)
        rw [List.forall₂_map_right_iff]
        refine List.forall₂_same.mpr fun e _ => ?_
        split_ifs with failures
        · exact .healed e t input att cause stands failures
        · exact .same e
      · cases step
        exact forall₂_same_entries rfl
  | refreshing purpose id snapshot =>
      have wrote : ∀ new, refreshToken snapshot input.refresh = .ok new →
          List.Forall₂ (Change env s a) m.entries (writeBack m id new).entries := by
        intro new answer
        apply forall₂_update
        rintro e rfl found
        exact .written e t input purpose snapshot new cause stands answer
      simp only [stepTask] at step
      repeat' split at step
      all_goals cases step
      all_goals first
        | exact forall₂_same_entries rfl
        | exact wrote _ ‹_›
  | forceRefreshing id snapshot =>
      simp only [stepTask] at step
      split at step
      · cases step
        exact forall₂_same_entries rfl
      · next new answer =>
        cases step
        show List.Forall₂ _ m.entries (updateFirst id _ (updateFirst id _ m.entries))
        rw [updateFirst_updateFirst]
        · apply forall₂_update
          rintro e rfl found
          exact .forced e t input snapshot new cause stands answer
        · intro e
          rfl
  | settingProfile att id c token arn | fillingTitle id answer =>
      simp only [stepTask] at step
      split at step
      · cases step
        exact forall₂_same_entries rfl
      · cases step
        apply forall₂_update
        rintro e rfl found
        exact .edited e _ (edits _ rfl) ⟨rfl, rfl, rfl⟩
  | fillingEmail id answer =>
      simp only [stepTask] at step
      split at step
      · cases step
        exact forall₂_same_entries rfl
      · cases step
        apply forall₂_update
        rintro e rfl found
        refine .edited e _ (edits _ rfl) ?_
        dsimp only
        split_ifs
        · exact ⟨rfl, rfl, rfl⟩
        · exact ⟨rfl, rfl, rfl⟩
  | finishing att id c token =>
      cases step
      apply forall₂_update
      rintro e rfl found
      exact .ensured e t input att c token cause stands
  | reloading att id found =>
      cases step
      apply forall₂_update
      rintro e rfl there
      exact .reloaded e t input att found cause stands
  | reportingInvalid att id =>
      cases step
      exact forall₂_reportRefreshTokenInvalid (.inr ⟨t, input, att, cause, stands⟩)
  | reportingFailure att id =>
      cases step
      exact forall₂_reportRefreshFailure (.inr ⟨t, input, att, cause, stands⟩)
  | addPushing id c => exact absurd rfl (kept id c)
  | _ =>
      simp only [stepTask] at step
      repeat' split at step
      all_goals first
        | cases step
          exact forall₂_same_entries rfl
        | cases step

theorem entries_step {s' : System} (step : s.step env a = some s') :
    List.Forall₂ (Change env s a) s.manager.entries s'.manager.entries ∨
    (∃ id e, a = .operation (.deleteEntry id) ∧ s.manager.find id = some e ∧ e.disabled = true ∧
      s'.manager.entries = s.manager.entries.filter (·.id != id)) ∨
    ∃ t input id c, a = .task t input ∧ s.tasks t = .addPushing id c ∧
      s'.manager.entries = s.manager.entries ++ [{ id := id, credentials := c }] := by
  cases a with
  | start t call =>
      simp only [System.step] at step
      split_ifs at step
      cases step
      exact .inl (forall₂_same_entries rfl)
  | task t input =>
      obtain ⟨next, taken, rfl⟩ := Option.map_eq_some_iff.mp step
      by_cases pushing : ∃ id c, s.tasks t = .addPushing id c
      · obtain ⟨id, c, stands⟩ := pushing
        rw [stands] at taken
        cases taken
        exact .inr (.inr ⟨t, input, id, c, rfl, stands, rfl⟩)
      · refine .inl (forall₂_stepTask rfl rfl taken ?_)
        intro id c stands
        exact pushing ⟨id, c, stands⟩
  | drop t =>
      simp only [System.step] at step
      split_ifs at step
      cases step
      exact .inl (forall₂_same_entries rfl)
  | operation op =>
      cases step
      by_cases deletes : ∃ id, op = .deleteEntry id
      · obtain ⟨id, rfl⟩ := deletes
        simp only [Operation.apply, deleteEntry]
        split
        · exact .inl (forall₂_same_entries rfl)
        · next e found =>
          split_ifs with enabled
          · exact .inl (forall₂_same_entries rfl)
          · exact .inr (.inl ⟨id, e, rfl, found, by simpa using enabled, rfl⟩)
      · exact .inl (forall₂_apply rfl fun id same => deletes ⟨id, same⟩)

theorem task_step {s' : System} (step : s.step env a = some s') (t : Nat) :
    s'.tasks t = s.tasks t ∨
    (∃ call, a = .start t call ∧ s'.tasks t = call.task s.manager) ∨
    (∃ input next, a = .task t input ∧
      stepTask env t input s.manager s.refreshLock (s.tasks t) = some next ∧
      s'.tasks t = next.task ∧ s'.manager = next.manager) ∨
    (a = .drop t ∧ s'.tasks t = .failed) := by
  cases a with
  | start t' call =>
      simp only [System.step] at step
      split_ifs at step
      cases step
      by_cases here : t = t'
      · subst here
        exact .inr (.inl ⟨call, rfl, Function.update_self ..⟩)
      · exact .inl (Function.update_of_ne here ..)
  | task t' input =>
      obtain ⟨next, taken, rfl⟩ := Option.map_eq_some_iff.mp step
      by_cases here : t = t'
      · subst here
        exact .inr (.inr (.inl ⟨input, next, rfl, taken, Function.update_self .., rfl⟩))
      · exact .inl (Function.update_of_ne here ..)
  | drop t' =>
      simp only [System.step] at step
      split_ifs at step
      cases step
      by_cases here : t = t'
      · subst here
        exact .inr (.inr (.inr ⟨rfl, Function.update_self ..⟩))
      · exact .inl (Function.update_of_ne here ..)
  | operation op =>
      cases step
      exact .inl rfl

theorem exists_of_forall₂ {α β : Type} {R : α → β → Prop} {xs : List α} {ys : List β}
    (each : List.Forall₂ R xs ys) {y : β} (mem : y ∈ ys) : ∃ x ∈ xs, R x y := by
  obtain ⟨n, there, rfl⟩ := List.getElem_of_mem mem
  have here : n < xs.length := by
    rw [each.length_eq]
    exact there
  exact ⟨xs[n], List.getElem_mem here, each.get here there⟩

theorem entry_step {s' : System} (step : s.step env a = some s') {e' : CredentialEntry}
    (mem : e' ∈ s'.manager.entries) :
    (∃ e ∈ s.manager.entries, Change env s a e e') ∨
      ∃ t id c, s.tasks t = .addPushing id c ∧ e' = { id := id, credentials := c } := by
  rcases entries_step step with changed | ⟨id, e, -, -, -, left⟩ | ⟨t, input, id, c, -, stands, new⟩
  · exact .inl (exists_of_forall₂ changed mem)
  · rw [left] at mem
    exact .inl ⟨e', List.mem_of_mem_filter mem, .same e'⟩
  · rw [new] at mem
    rcases List.mem_append.mp mem with old | added
    · exact .inl ⟨e', old, .same e'⟩
    · exact .inr ⟨t, id, c, stands, List.mem_singleton.mp added⟩

theorem forall_entries_step {P : CredentialEntry → Prop} {s' : System}
    (step : s.step env a = some s') (inv : ∀ e ∈ s.manager.entries, P e)
    (changes : ∀ e ∈ s.manager.entries, ∀ e', Change env s a e e' → P e → P e')
    (pushes : ∀ t id c, s.tasks t = .addPushing id c → P { id := id, credentials := c }) :
    ∀ e ∈ s'.manager.entries, P e := by
  intro e' mem
  rcases entry_step step mem with ⟨e, before, change⟩ | ⟨t, id, c, stands, rfl⟩
  · exact changes e before e' change (inv e before)
  · exact pushes t id c stands

end KiroRs.Pool.Changes
