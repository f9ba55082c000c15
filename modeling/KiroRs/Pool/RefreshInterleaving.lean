/- Path: KiroRs/Pool/RefreshInterleaving
   source: src/kiro/token_manager.rs
   digest: A token refresh stores the credentials it copied before it asked the upstream. What the
   write-back undoes, and the runs in which it undoes nothing. -/

import KiroRs.Pool.Selection

set_option autoImplicit false
set_option relaxedAutoImplicit false

namespace KiroRs.Pool.RefreshInterleaving

open KiroRs.Lib.Text
open KiroRs.Lib.Traces
open KiroRs.Pool.Credentials
open KiroRs.Pool.Manager
open KiroRs.Pool.Manager.MultiTokenManager
open KiroRs.Pool.Tasks
open KiroRs.Pool.Selection

/-- The credentials of the entry with the given id. -/
def credentialsOf (m : MultiTokenManager) (id : Nat) : Option KiroCredentials :=
  (m.find id).map (·.credentials)

variable {env : Env} {m : MultiTokenManager} {id id' : Nat}

theorem credentialsOf_update {f : CredentialEntry → CredentialEntry}
    (keeps : ∀ e, (f e).id = e.id) :
    credentialsOf (m.update id f) id' =
      if id' = id then (m.find id).map fun e => (f e).credentials else credentialsOf m id' := by
  rw [credentialsOf, find_update keeps]
  split_ifs
  · rw [Option.map_map]
    rfl
  · rfl

theorem credentialsOf_update_same {f : CredentialEntry → CredentialEntry}
    (keeps : ∀ e, (f e).id = e.id) (same : ∀ e, (f e).credentials = e.credentials) :
    credentialsOf (m.update id f) id' = credentialsOf m id' := by
  rw [credentialsOf_update keeps]
  split_ifs with here
  · rw [here, credentialsOf]
    simp only [same]
  · rfl

theorem credentialsOf_update_other {f : CredentialEntry → CredentialEntry}
    (keeps : ∀ e, (f e).id = e.id) (other : id' ≠ id) :
    credentialsOf (m.update id f) id' = credentialsOf m id' := by
  rw [credentialsOf_update keeps, if_neg other]

theorem credentialsOf_congr {m' : MultiTokenManager} (same : m'.entries = m.entries) :
    credentialsOf m' id = credentialsOf m id := by
  rw [credentialsOf, credentialsOf, find, find, same]

theorem credentialsOf_map {f : CredentialEntry → CredentialEntry} (keeps : ∀ e, (f e).id = e.id)
    (same : ∀ e, (f e).credentials = e.credentials) :
    credentialsOf { m with entries := m.entries.map f } id = credentialsOf m id := by
  rw [credentialsOf, find, find_map keeps, Option.map_map, credentialsOf, find]
  congr 1
  funext e
  exact same e

theorem credentialsOf_heal : credentialsOf m.heal id = credentialsOf m id := by
  apply credentialsOf_map
  · intro e
    split_ifs <;> rfl
  · intro e
    split_ifs <;> rfl

private theorem credentialsOf_onEnabled {report : CredentialEntry → MultiTokenManager × Bool}
    (same : ∀ e, credentialsOf (report e).1 id' = credentialsOf m id') :
    credentialsOf (m.onEnabled id report).1 id' = credentialsOf m id' := by
  unfold onEnabled
  split
  · rfl
  · split_ifs
    · rfl
    · exact same _

private theorem credentialsOf_settle {result : Except String MultiTokenManager}
    (same : ∀ m', result = .ok m' → credentialsOf m' id' = credentialsOf m id') :
    credentialsOf (settle m result) id' = credentialsOf m id' := by
  cases result with
  | error e => rfl
  | ok m' => exact same m' rfl

private theorem editEntry_ok {f : CredentialEntry → CredentialEntry} {m' : MultiTokenManager}
    (h : m.editEntry id f = .ok m') : m' = m.update id f := by
  unfold editEntry at h
  split at h
  · cases h
  · cases h
    rfl

private theorem credentialsOf_editEntry_same {f : CredentialEntry → CredentialEntry}
    (keeps : ∀ e, (f e).id = e.id) (same : ∀ e, (f e).credentials = e.credentials) :
    credentialsOf (settle m (m.editEntry id f)) id' = credentialsOf m id' := by
  apply credentialsOf_settle
  intro m' ok
  rw [editEntry_ok ok, credentialsOf_update_same keeps same]

private theorem credentialsOf_editEntry_other {f : CredentialEntry → CredentialEntry}
    (keeps : ∀ e, (f e).id = e.id) (other : id' ≠ id) :
    credentialsOf (settle m (m.editEntry id f)) id' = credentialsOf m id' := by
  apply credentialsOf_settle
  intro m' ok
  rw [editEntry_ok ok, credentialsOf_update_other keeps other]

def editedId : Operation → Option Nat
  | .setPriority id _ | .setEndpoint id _ | .updateCredential id _ _ _ _
  | .updateAuthMetadata id _ | .deleteEntry id | .updateRefreshToken id _ _ _ => some id
  | _ => none

private theorem credentialsOf_deleteEntry (other : id' ≠ id) :
    credentialsOf (settle m ((m.deleteEntry id).map (·.1))) id' = credentialsOf m id' := by
  unfold deleteEntry
  split
  · rfl
  · split_ifs
    · rfl
    · rw [Except.map, settle, credentialsOf, credentialsOf, find, find, List.find?_filter]
      congr 2
      funext e
      cases eq : e.id == id'
      · simp
      · have here : e.id = id' := by simpa using eq
        simp [here, other]

private theorem credentialsOf_updateRefreshToken (token : String) (access expires : Option String)
    (other : id' ≠ id) :
    credentialsOf (settle m (m.updateRefreshToken env id token access expires)) id' =
      credentialsOf m id' := by
  apply credentialsOf_settle
  intro m' ok
  unfold updateRefreshToken at ok
  dsimp only at ok
  repeat' split at ok
  all_goals first
    | cases ok
      exact credentialsOf_update_other (fun _ => rfl) other
    | cases ok

private theorem credentialsOf_resetAndEnable :
    credentialsOf (settle m (m.resetAndEnable id)) id' = credentialsOf m id' := by
  apply credentialsOf_settle
  intro m' ok
  unfold resetAndEnable at ok
  repeat' split at ok
  all_goals cases ok
  exact credentialsOf_update_same (fun _ => rfl) (fun _ => rfl)

private theorem credentialsOf_reportRateLimited (now later cooldown : Nat) :
    credentialsOf (m.reportRateLimited id now later cooldown).1 id' = credentialsOf m id' := by
  unfold reportRateLimited
  simp only
  repeat' split
  all_goals exact credentialsOf_update_same (fun _ => rfl) (fun _ => rfl)

theorem credentialsOf_apply (env : Env) {op : Operation} (other : editedId op ≠ some id') :
    credentialsOf (op.apply env m) id' = credentialsOf m id' := by
  cases op with
  | reportSuccess id stamp => exact credentialsOf_update_same (fun _ => rfl) (fun _ => rfl)
  | reportFailure id stamp =>
      apply credentialsOf_onEnabled
      intro e
      dsimp only
      split_ifs
      · rw [credentialsOf_congr entries_switchToBest]
        exact credentialsOf_update_same (fun _ => rfl) (fun _ => rfl)
      · exact credentialsOf_update_same (fun _ => rfl) (fun _ => rfl)
  | reportQuotaExhausted id stamp | reportRefreshTokenInvalid id stamp =>
      apply credentialsOf_onEnabled
      intro e
      rw [credentialsOf_congr entries_switchToBest]
      exact credentialsOf_update_same (fun _ => rfl) (fun _ => rfl)
  | reportRefreshFailure id stamp =>
      apply credentialsOf_onEnabled
      intro e
      dsimp only
      split_ifs
      · exact credentialsOf_update_same (fun _ => rfl) (fun _ => rfl)
      · rw [credentialsOf_congr entries_switchToBest]
        exact credentialsOf_update_same (fun _ => rfl) (fun _ => rfl)
  | switchToNext =>
      apply credentialsOf_congr
      simp only [Operation.apply, switchToNext]
      split <;> rfl
  | reportAccountThrottled id now later cooldown =>
      exact credentialsOf_update_same (fun _ => rfl) (fun _ => rfl)
  | reportRateLimited id now later cooldown => exact credentialsOf_reportRateLimited _ _ _
  | setDisabled id disabled =>
      apply credentialsOf_editEntry_same
      · intro e
        split_ifs <;> rfl
      · intro e
        split_ifs <;> rfl
  | clearThrottle id | disableQuotaExceeded id =>
      exact credentialsOf_editEntry_same (fun _ => rfl) (fun _ => rfl)
  | setPriority id _ | setEndpoint id _ | updateCredential id _ _ _ _ | updateAuthMetadata id _ =>
      have ne : id' ≠ id := fun same => other (by rw [same]; rfl)
      exact credentialsOf_editEntry_other (fun _ => rfl) ne
  | selectHighestPriority => exact credentialsOf_congr entries_switchToBest
  | resetAndEnable id => exact credentialsOf_resetAndEnable
  | resetSuccessCount id =>
      cases id with
      | some id => exact credentialsOf_editEntry_same (fun _ => rfl) (fun _ => rfl)
      | none =>
          exact credentialsOf_map (fun _ => rfl) (fun _ => rfl)
  | deleteEntry id =>
      have ne : id' ≠ id := fun same => other (by rw [same]; rfl)
      exact credentialsOf_deleteEntry ne
  | resetCurrentIfEmpty =>
      apply credentialsOf_congr
      simp only [Operation.apply, resetCurrentIfEmpty]
      split_ifs <;> rfl
  | updateRefreshToken id token access expires =>
      have ne : id' ≠ id := fun same => other (by rw [same]; rfl)
      exact credentialsOf_updateRefreshToken token access expires ne
  | setLoadBalancingMode mode =>
      apply credentialsOf_settle
      intro m' ok
      unfold setLoadBalancingMode at ok
      split_ifs at ok
      cases ok
      rfl
  | updateGlobalConfigRuntime config => rfl

def writtenId : Task → Option Nat
  | .refreshing _ id _ | .forceRefreshing id _ | .settingProfile _ id _ _ _ | .reloading _ id _
  | .fillingTitle id _ | .fillingEmail id _ | .addPushing id _ => some id
  | _ => none

private theorem credentialsOf_writeBack_other (new : KiroCredentials) (other : id' ≠ id) :
    credentialsOf (writeBack m id new) id' = credentialsOf m id' :=
  credentialsOf_update_other (fun _ => rfl) other

theorem credentialsOf_stepTask {t : Nat} {input : Input} {lock : Option Nat} {task : Task}
    {next : Next} (step : stepTask env t input m lock task = some next)
    (other : writtenId task ≠ some id') :
    credentialsOf next.manager id' = credentialsOf m id' := by
  cases task with
  | refreshing p id snapshot =>
      have ne : id' ≠ id := fun same => other (by rw [same]; rfl)
      simp only [stepTask] at step
      repeat' split at step
      all_goals cases step
      all_goals first
        | rfl
        | exact credentialsOf_writeBack_other _ ne
  | forceRefreshing id snapshot =>
      have ne : id' ≠ id := fun same => other (by rw [same]; rfl)
      simp only [stepTask] at step
      split at step
      · cases step
        rfl
      · rename_i new _
        cases step
        refine Eq.trans (credentialsOf_update_same ?_ ?_) (credentialsOf_writeBack_other new ne)
        · intro e
          rfl
        · intro e
          rfl
  | settingProfile a id c token arn | fillingTitle id answer | fillingEmail id answer =>
      have ne : id' ≠ id := fun same => other (by rw [same]; rfl)
      simp only [stepTask] at step
      split at step
      · cases step
        rfl
      · cases step
        exact credentialsOf_update_other (fun _ => rfl) ne
  | reloading a id found =>
      have ne : id' ≠ id := fun same => other (by rw [same]; rfl)
      cases step
      exact credentialsOf_update_other (fun _ => rfl) ne
  | addPushing id c =>
      have ne : id ≠ id' := fun same => other (by rw [same]; rfl)
      cases step
      rw [credentialsOf, find, List.find?_append]
      simp [ne, credentialsOf, find]
  | finishing a id c token =>
      cases step
      exact credentialsOf_update_same (fun _ => rfl) (fun _ => rfl)
  | healing a =>
      simp only [stepTask] at step
      split_ifs at step
      · cases step
        exact credentialsOf_heal
      · cases step
        rfl
  | reportingInvalid a id =>
      cases step
      have quiet : editedId (.reportRefreshTokenInvalid id input.stamp) ≠ some id' := by
        simp [editedId]
      exact credentialsOf_apply env quiet
  | reportingFailure a id =>
      cases step
      have quiet : editedId (.reportRefreshFailure id input.stamp) ≠ some id' := by
        simp [editedId]
      exact credentialsOf_apply env quiet
  | _ =>
      simp only [stepTask] at step
      repeat' split at step
      all_goals first
        | cases step
          rfl
        | cases step

/-- The entry and the copy of its credentials that a refresh under way will write back from. -/
def snapshotOf : Task → Option (Nat × KiroCredentials)
  | .refreshing _ id snapshot | .forceWaiting id snapshot | .forceRefreshing id snapshot =>
      some (id, snapshot)
  | _ => none

@[simp] theorem snapshotOf_tokenFailed (p : Purpose) (id : Nat) (error : RefreshError) :
    snapshotOf (tokenFailed p id error) = none := by
  cases p with
  | acquire a => cases error <;> rfl
  | usage | models | preference => rfl

@[simp] theorem snapshotOf_withAccessToken (p : Purpose) (id : Nat) (c : KiroCredentials) :
    snapshotOf (withAccessToken p id c) = none := by
  unfold withAccessToken
  cases c.accessToken with
  | none => exact snapshotOf_tokenFailed p id _
  | some token => cases p <;> rfl

@[simp] theorem snapshotOf_tokenTask (utcNow : Int) (p : Purpose) (id : Nat)
    (c : KiroCredentials) : snapshotOf (tokenTask env utcNow p id c) = none := by
  unfold tokenTask
  split_ifs
  · cases c.kiroApiKey with
    | none => exact snapshotOf_tokenFailed p id _
    | some key => cases p <;> rfl
  · rfl
  · exact snapshotOf_withAccessToken p id c

/-- A task that holds a snapshot after its step held it before or has just copied it, and the step
changed no entry. -/
theorem snapshotOf_stepTask {t : Nat} {input : Input} {lock : Option Nat} {task : Task}
    {next : Next} {snapshot : KiroCredentials}
    (step : stepTask env t input m lock task = some next)
    (holds : snapshotOf next.task = some (id, snapshot)) :
    next.manager = m ∧
      (snapshotOf task = some (id, snapshot) ∨ credentialsOf m id = some snapshot) := by
  cases task with
  | rereading p id' =>
      simp only [stepTask] at step
      split at step
      · cases step
        simp at holds
      · rename_i e found
        split_ifs at step
        · cases step
          cases holds
          refine ⟨rfl, Or.inr ?_⟩
          rw [credentialsOf, found]
          rfl
        · cases step
          simp at holds
  | forceReading id' =>
      simp only [stepTask] at step
      split at step
      · cases step
        cases holds
      · rename_i e found
        cases step
        cases holds
        refine ⟨rfl, Or.inr ?_⟩
        rw [credentialsOf, found]
        rfl
  | forceWaiting id' c =>
      simp only [stepTask] at step
      split_ifs at step
      cases step
      exact ⟨rfl, Or.inl holds⟩
  | token p id' c =>
      cases step
      simp at holds
  | refreshing p id' c =>
      simp only [stepTask] at step
      repeat' split at step
      all_goals cases step
      all_goals simp at holds
  | reportingInvalid a id' | reportingFailure a id' =>
      cases step
      dsimp only at holds
      split_ifs at holds <;> cases holds
  | _ =>
      simp only [stepTask] at step
      repeat' split at step
      all_goals first
        | cases step
          cases holds
        | cases step

/-- The step edits, removes or writes the credentials of the entry. -/
def Edits (s : System) (a : Action) (id : Nat) : Prop :=
  match a with
  | .operation op => editedId op = some id
  | .task t _ => writtenId (s.tasks t) = some id
  | _ => False

/-- The step does not touch the credentials of an entry while another task holds a snapshot of
them. -/
def Undisturbed (s : System) (a : Action) : Prop :=
  ∀ t id snapshot, snapshotOf (s.tasks t) = some (id, snapshot) → (∀ input, a ≠ .task t input) →
    ¬ Edits s a id

def SnapshotsCurrent (s : System) : Prop :=
  ∀ t id snapshot, snapshotOf (s.tasks t) = some (id, snapshot) →
    credentialsOf s.manager id = some snapshot

theorem credentialsOf_step {s s' : System} {a : Action} (step : s.step env a = some s')
    (other : ¬ Edits s a id) : credentialsOf s'.manager id = credentialsOf s.manager id := by
  cases a with
  | start t call =>
      simp only [System.step] at step
      split_ifs at step
      cases step
      rfl
  | task t input =>
      obtain ⟨next, taken, rfl⟩ := Option.map_eq_some_iff.mp step
      exact credentialsOf_stepTask taken other
  | drop t =>
      simp only [System.step] at step
      split_ifs at step
      cases step
      rfl
  | operation op =>
      cases step
      exact credentialsOf_apply env other

theorem snapshotOf_call (m : MultiTokenManager) (call : Call) :
    snapshotOf (call.task m) = none := by
  cases call with
  | setUserPreferenceFor id overageStatus =>
      simp only [Call.task]
      split_ifs
      · rfl
      · rfl
  | _ => rfl

theorem snapshotsCurrent_step {s s' : System} {a : Action} (inv : SnapshotsCurrent s)
    (calm : Undisturbed s a) (step : s.step env a = some s') : SnapshotsCurrent s' := by
  intro t id snapshot holds
  -- a task that held the snapshot before a step of another task or operation
  have kept (before : snapshotOf (s.tasks t) = some (id, snapshot))
      (foreign : ∀ input, a ≠ .task t input) : credentialsOf s'.manager id = some snapshot := by
    rw [credentialsOf_step step (calm t id snapshot before foreign)]
    exact inv t id snapshot before
  cases a with
  | start t' call =>
      have entered := step
      simp only [System.step] at entered
      split_ifs at entered
      cases entered
      dsimp only at holds
      by_cases same : t = t'
      · subst same
        rw [Function.update_self, snapshotOf_call] at holds
        cases holds
      · rw [Function.update_of_ne same] at holds
        exact kept holds (fun _ => by simp)
  | task t' input =>
      have made := step
      obtain ⟨next, taken, rfl⟩ := Option.map_eq_some_iff.mp made
      dsimp only at holds
      by_cases same : t = t'
      · subst same
        rw [Function.update_self] at holds
        obtain ⟨unchanged, before | copied⟩ := snapshotOf_stepTask taken holds
        · dsimp only
          rw [unchanged]
          exact inv t id snapshot before
        · dsimp only
          rw [unchanged]
          exact copied
      · rw [Function.update_of_ne same] at holds
        exact kept holds (fun _ eq => same (by cases eq; rfl))
  | drop t' =>
      have dropped := step
      simp only [System.step] at dropped
      split_ifs at dropped
      cases dropped
      dsimp only at holds
      by_cases same : t = t'
      · subst same
        rw [Function.update_self] at holds
        cases holds
      · rw [Function.update_of_ne same] at holds
        exact kept holds (fun _ => by simp)
  | operation op =>
      have applied := step
      cases applied
      exact kept holds (fun _ => by simp)

/-- A step of a task stores what a refresh of the entry, begun from the snapshot, was answered. -/
inductive WritesBack (env : Env) (s : System) :
    Action → Nat → KiroCredentials → RefreshResponse → Prop where
  | prepared (t : Nat) (input : Input) (purpose : Purpose) (id : Nat) (snapshot : KiroCredentials)
      (data : RefreshResponse) (stands : s.tasks t = .refreshing purpose id snapshot)
      (answer : input.refresh = .ok data)
      (accepted : refreshToken snapshot input.refresh = .ok (snapshot.refreshed data))
      (usable : (requested purpose).isSome →
        isTokenExpired env input.utcNow (snapshot.refreshed data) = false) :
      WritesBack env s (.task t input) id snapshot data
  | forced (t : Nat) (input : Input) (id : Nat) (snapshot : KiroCredentials)
      (data : RefreshResponse) (stands : s.tasks t = .forceRefreshing id snapshot)
      (answer : input.refresh = .ok data)
      (accepted : refreshToken snapshot input.refresh = .ok (snapshot.refreshed data)) :
      WritesBack env s (.task t input) id snapshot data

theorem WritesBack.step {s : System} {a : Action} {snapshot : KiroCredentials}
    {data : RefreshResponse} (writes : WritesBack env s a id snapshot data) :
    ∃ s', s.step env a = some s' := by
  cases writes with
  | prepared t input purpose id snapshot data stands answer accepted usable =>
      rw [System.step, stands]
      simp only [stepTask, accepted]
      split
      · rw [usable rfl]
        exact ⟨_, rfl⟩
      · exact ⟨_, rfl⟩
  | forced t input id snapshot data stands answer accepted =>
      rw [System.step, stands]
      simp only [stepTask, accepted]
      exact ⟨_, rfl⟩

theorem credentialsOf_writesBack {s s' : System} {a : Action} {snapshot : KiroCredentials}
    {data : RefreshResponse} (writes : WritesBack env s a id snapshot data)
    (step : s.step env a = some s') :
    credentialsOf s'.manager id =
        (credentialsOf s.manager id).map (fun _ => snapshot.refreshed data) ∧
      ∀ other, other ≠ id → credentialsOf s'.manager other = credentialsOf s.manager other := by
  have own : credentialsOf (writeBack s.manager id (snapshot.refreshed data)) id =
      (credentialsOf s.manager id).map (fun _ => snapshot.refreshed data) := by
    rw [writeBack, updateCredentials, credentialsOf_update, if_pos rfl, credentialsOf,
      Option.map_map]
    · rfl
    · intro e
      rfl
  constructor
  · cases writes with
    | prepared t input purpose id snapshot data stands answer accepted usable =>
        obtain ⟨next, taken, rfl⟩ := Option.map_eq_some_iff.mp step
        rw [stands] at taken
        simp only [stepTask, accepted] at taken
        split at taken
        · rw [usable rfl] at taken
          cases taken
          exact own
        · cases taken
          exact own
    | forced t input id snapshot data stands answer accepted =>
        obtain ⟨next, taken, rfl⟩ := Option.map_eq_some_iff.mp step
        rw [stands] at taken
        simp only [stepTask, accepted] at taken
        cases taken
        refine Eq.trans (credentialsOf_update_same ?_ ?_) own
        · intro e
          rfl
        · intro e
          rfl
  · intro other ne
    apply credentialsOf_step step
    cases writes with
    | prepared t input purpose id snapshot data stands =>
        intro edits
        rw [Edits, stands] at edits
        cases edits
        exact ne rfl
    | forced t input id snapshot data stands =>
        intro edits
        rw [Edits, stands] at edits
        cases edits
        exact ne rfl

private theorem WritesBack.holds {s : System} {a : Action} {snapshot : KiroCredentials}
    {data : RefreshResponse} (writes : WritesBack env s a id snapshot data) :
    ∃ t, snapshotOf (s.tasks t) = some (id, snapshot) := by
  cases writes with
  | prepared t input purpose id snapshot data stands => exact ⟨t, by rw [stands]; rfl⟩
  | forced t input id snapshot data stands => exact ⟨t, by rw [stands]; rfl⟩

/-- What a refresh may change of an entry's credentials: the access token is that of the answer,
the refresh token, the profile and the expiry are those of the answer where it brings any, and all
else stays as the operator has it. -/
structure OnlyProduced (data : RefreshResponse) (c c' : KiroCredentials) : Prop where
  access_token : c'.accessToken = some data.accessToken
  refresh_token : c'.refreshToken = if data.refreshToken.isSome then data.refreshToken
    else c.refreshToken
  profile_arn : c'.profileArn = if data.profileArn.isSome then data.profileArn else c.profileArn
  expires_at : c'.expiresAt = if data.expiresAt.isSome then data.expiresAt else c.expiresAt
  priority : c'.priority = c.priority
  endpoint : c'.endpoint = c.endpoint
  proxy : (c'.proxyUrl, c'.proxyUsername, c'.proxyPassword) =
    (c.proxyUrl, c.proxyUsername, c.proxyPassword)
  email : c'.email = c.email
  regions : (c'.region, c'.authRegion, c'.apiRegion) = (c.region, c.authRegion, c.apiRegion)
  auth_metadata : (c'.authMethod, c'.provider, c'.clientId, c'.clientSecret, c'.startUrl) =
    (c.authMethod, c.provider, c.clientId, c.clientSecret, c.startUrl)
  subscription_title : c'.subscriptionTitle = c.subscriptionTitle
  identity : (c'.id, c'.machineId, c'.disabled, c'.kiroApiKey) =
    (c.id, c.machineId, c.disabled, c.kiroApiKey)

theorem onlyProduced_refreshed (data : RefreshResponse) (c : KiroCredentials) :
    OnlyProduced data c (c.refreshed data) := by
  have falls_back (answered held : Option String) :
      answered.or held = if answered.isSome then answered else held := by
    cases answered <;> rfl
  exact ⟨rfl, falls_back _ _, falls_back _ _, falls_back _ _, rfl, rfl, rfl, rfl, rfl, rfl, rfl, rfl⟩

/-- Over every run in which no credentials are touched while another task holds a snapshot of
them, every write-back changes of its entry only what the upstream's answer brought, changes no
other entry, and replaces the very refresh token that was sent. -/
theorem writeBack_changes_produced (env : Env) (m : MultiTokenManager)
    (trace : List (System × Action)) (s : System) (run : PoolRun env m trace s)
    (calm : Guarded Undisturbed trace) (before : System) (a : Action) (taken : (before, a) ∈ trace)
    (id : Nat) (snapshot : KiroCredentials) (data : RefreshResponse)
    (writes : WritesBack env before a id snapshot data) :
    ∃ after c c', before.step env a = some after ∧
      credentialsOf before.manager id = some c ∧ credentialsOf after.manager id = some c' ∧
      OnlyProduced data c c' ∧ c.refreshToken = snapshot.refreshToken ∧
      ∀ other, other ≠ id →
        credentialsOf after.manager other = credentialsOf before.manager other := by
  obtain ⟨earlier, after, reach, calm', _, step⟩ := run.step_mem calm taken
  have current : SnapshotsCurrent before := by
    refine reach.invariant_state ?_ ?_ calm'
    · intro t id snapshot holds
      cases holds
    · exact fun _ _ _ inv calm step => snapshotsCurrent_step inv calm step
  obtain ⟨t, holds⟩ := writes.holds
  have held := current t id snapshot holds
  obtain ⟨own, others⟩ := credentialsOf_writesBack writes step
  rw [held] at own
  exact ⟨after, snapshot, snapshot.refreshed data, step, held, own,
    onlyProduced_refreshed data snapshot, rfl, others⟩

def longToken : String := String.ofList (List.replicate 100 'r')

def oauth : KiroCredentials := { refreshToken := some longToken }

def single : MultiTokenManager where
  config := ⟨"us-east-1", none, none⟩
  entries := [{ id := 1, credentials := oauth }]
  currentId := 1
  loadBalancingMode := "priority"
  enterpriseProfileFetchAttempted := []

def newToken : RefreshResponse := ⟨"access", none, none, none⟩

private theorem oauth_accepted :
    refreshToken oauth (.ok newToken) = .ok (oauth.refreshed newToken) := by decide +kernel

/-- A forced refresh copies the entry, the administrator sets its priority to 7, and the
write-back sets it to 0 again. -/
theorem writeBack_undoes_priority : ∃ trace before a after,
    PoolRun plainEnv single trace before ∧ WritesBack plainEnv before a 1 oauth newToken ∧
      before.step plainEnv a = some after ∧
      (credentialsOf before.manager 1).map (·.priority) = some 7 ∧
      (credentialsOf after.manager 1).map (·.priority) = some 0 := by
  obtain ⟨trace, before, run, writes, seven⟩ : ∃ trace before,
      PoolRun plainEnv single trace before ∧
        WritesBack plainEnv before (.task 0 { refresh := .ok newToken }) 1 oauth newToken ∧
        (credentialsOf before.manager 1).map (·.priority) = some 7 :=
    ⟨_, _, .cons (a := .task 0 {}) (.cons (a := .operation (.setPriority 1 7))
      (.cons (a := .task 0 {}) (.cons (a := .start 0 (.forceRefreshTokenFor 1)) .nil rfl) rfl) rfl)
      rfl, .forced 0 _ 1 oauth newToken rfl rfl oauth_accepted, rfl⟩
  obtain ⟨after, step⟩ := writes.step
  refine ⟨trace, before, _, after, run, writes, step, seven, ?_⟩
  rw [(credentialsOf_writesBack writes step).1, Option.map_map]
  cases found : credentialsOf before.manager 1 with
  | none =>
      rw [found] at seven
      cases seven
  | some c => rfl

/-- A step touches no entry of which one of these tasks holds a snapshot, but for the task's own. -/
def undisturbedBy (ts : List Nat) (p : System × Action) : Bool :=
  ts.all fun t =>
    (snapshotOf (p.1.tasks t)).all fun held =>
      match p.2 with
      | .operation op => editedId op != some held.1
      | .task t' _ => t' == t || writtenId (p.1.tasks t') != some held.1
      | _ => true

theorem undisturbed_of_check {ts : List Nat} {s : System} {a : Action}
    (checked : undisturbedBy ts (s, a) = true) (idle : ∀ t, t ∉ ts → s.tasks t = .idle) :
    Undisturbed s a := by
  intro t id snapshot holds foreign edits
  by_cases listed : t ∈ ts
  · have here := List.all_eq_true.mp checked t listed
    rw [holds, Option.all_some] at here
    cases a with
    | operation op =>
      rw [Edits] at edits
      simp [edits] at here
    | task t' input =>
      have other : t' ≠ t := by
        rintro rfl
        exact foreign input rfl
      rw [Edits] at edits
      simp [edits, other] at here
    | start t' call | drop t' => exact edits
  · rw [idle t listed] at holds
    cases holds

def pair : MultiTokenManager :=
  { single with
    entries := [{ id := 1, credentials := oauth },
      { id := 2, credentials := { kiroApiKey := some "ksk_2" } }] }

/-- The priority of the first account is set, a forced refresh copies it, and while the refresh is
under way a request is served by the second account, whose settings are edited, and the first is
counted a failure. -/
def busyRefresh : List Action :=
  [.operation (.setPriority 1 3), .operation (.setEndpoint 1 (some "cli")),
    .start 0 (.forceRefreshTokenFor 1), .task 0 {}, .start 1 (.acquireContext none),
    .operation (.setPriority 2 1), .task 0 {}, .operation (.reportFailure 1 "now"),
    .operation (.updateCredential 2 (some (some "b@example.com")) none none none),
    .operation (.setDisabled 1 true), .task 1 {}, .task 1 {}, .task 1 {}, .task 1 {}, .task 1 {}]

def edited : KiroCredentials := { oauth with priority := 3, endpoint := some "cli" }

def refreshed : Action := .task 0 { refresh := .ok newToken }

theorem busyRefresh_run :
    ((follow (System.step plainEnv) [] (System.initial pair) busyRefresh).any fun reached =>
      ((reached.2, refreshed) :: reached.1).all (undisturbedBy [0, 1]) &&
        actsWithin [0, 1] reached.1 && decide (reached.2.tasks 0 = .forceRefreshing 1 edited) &&
        decide (credentialsOf reached.2.manager 1 = some edited)) = true := by
  decide +kernel

theorem writeBack_changes_produced_busy : ∃ trace before after c',
    PoolRun plainEnv pair trace before ∧ before.step plainEnv refreshed = some after ∧
      credentialsOf after.manager 1 = some c' ∧ c'.accessToken = some "access" ∧
      c'.priority = 3 ∧ c'.endpoint = some "cli" ∧
      credentialsOf after.manager 2 = credentialsOf before.manager 2 := by
  obtain ⟨trace, before, run, -, holds⟩ := exists_run_of_follow busyRefresh_run
  simp only [Bool.and_eq_true, decide_eq_true_eq, List.all_eq_true] at holds
  obtain ⟨⟨⟨checked, within⟩, stands⟩, holds_edited⟩ := holds
  have writes : WritesBack plainEnv before refreshed 1 edited newToken :=
    .forced 0 _ 1 _ newToken stands rfl (by decide +kernel)
  have calm : Guarded Undisturbed ((before, refreshed) :: trace) := by
    intro p mem
    refine undisturbed_of_check (checked p mem) fun t other => ?_
    obtain ⟨now, earlier⟩ := idle_of_actsWithin run within other
    rcases List.mem_cons.mp mem with rfl | past
    · exact now
    · exact earlier p past
  obtain ⟨last, step⟩ := writes.step
  obtain ⟨after, c, c', taken, held, own, produced, -, others⟩ :=
    writeBack_changes_produced plainEnv pair _ last (run.cons step) calm before refreshed
      List.mem_cons_self 1 _ newToken writes
  rw [holds_edited] at held
  cases held
  exact ⟨trace, before, after, c', run, taken, own, produced.access_token, produced.priority,
    produced.endpoint, others 2 (by decide)⟩

end KiroRs.Pool.RefreshInterleaving
