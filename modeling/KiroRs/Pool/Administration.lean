/- Path: KiroRs/Pool/Administration
   source: src/kiro/token_manager.rs
   digest: The operations of the administration from their checks to the credentials file, and when
   one that fails leaves the pool as it was. -/

import KiroRs.Pool.Invariants

set_option autoImplicit false
set_option relaxedAutoImplicit false

namespace KiroRs.Pool.Administration

open KiroRs.Pool.Credentials
open KiroRs.Pool.Manager
open KiroRs.Pool.Manager.MultiTokenManager
open KiroRs.Pool.Tasks
open KiroRs.Pool.Startup (Sources)
open KiroRs.Pool.Selection (plainEnv)
open KiroRs.Pool.Changes (updateRefreshToken_ok find_of_findIdx?)

/-- What `persist_credentials` meets: the format of the file, whether there is one, and what the
file system says to the write. -/
structure CredentialsFile where
  isMultipleFormat : Bool
  credentialsPath : Bool
  write : Except String Unit

def persistCredentials (file : CredentialsFile) : Except String Bool :=
  if !file.isMultipleFormat then .ok false
  else if !file.credentialsPath then .ok false
  else
    match file.write with
    | .error message => .error ("回写凭据文件失败: " ++ message)
    | .ok _ => .ok true

abbrev Outcome (α : Type) := MultiTokenManager × Except String α

/-- A change under the lock, and the write of the file behind it. -/
def thenPersist (file : CredentialsFile) (m : MultiTokenManager) :
    Except String MultiTokenManager → Outcome Unit
  | .error message => (m, .error message)
  | .ok m' => (m', (persistCredentials file).map fun _ => ())

variable (env : Env) (file : CredentialsFile) (m : MultiTokenManager) (id : Nat)

def setDisabled (disabled : Bool) : Outcome Unit := thenPersist file m (m.setDisabled id disabled)

def disableQuotaExceeded : Outcome Unit := thenPersist file m (m.disableQuotaExceeded id)

def resetAndEnable : Outcome Unit := thenPersist file m (m.resetAndEnable id)

def setEndpoint (endpoint : Option String) : Outcome Unit :=
  thenPersist file m (m.setEndpoint id endpoint)

def setPriority (priority : Nat) : Outcome Unit :=
  thenPersist file m ((m.setPriorityOf id priority).map selectHighestPriority)

def updateCredential (email proxyUrl proxyUsername proxyPassword : Option (Option String)) :
    Outcome Unit :=
  thenPersist file m (m.updateCredential id email proxyUrl proxyUsername proxyPassword)

def updateAuthMetadata (metadata : KiroCredentials) : Outcome Unit :=
  match m.find id with
  | none => (m, .error (missing id))
  | some e =>
    if withMetadata e.credentials metadata = e.credentials then (m, .ok ())
    else thenPersist file m (m.updateAuthMetadata id metadata)

def updateRefreshToken (newRefreshToken : String) (newAccessToken newExpiresAt : Option String) :
    Outcome Unit :=
  thenPersist file m (m.updateRefreshToken env id newRefreshToken newAccessToken newExpiresAt)

def deleteCredential : Outcome Unit :=
  thenPersist file m ((m.deleteEntry id).map fun deleted =>
    (if deleted.2 then deleted.1.selectHighestPriority else deleted.1).resetCurrentIfEmpty)

/-- Credentials with a refresh token are refreshed before they are added. -/
def validated (new : KiroCredentials) (answer : Except RefreshError RefreshResponse) :
    Except RefreshError KiroCredentials :=
  if new.isApiKeyCredential then .ok new else refreshToken new answer

def message : RefreshError → String
  | .invalid message | .other message => message

/-- `answer` is that of the token endpoint. From now on the file has several credentials. -/
def addCredential (new : KiroCredentials) (answer : Except RefreshError RefreshResponse) :
    Outcome Nat :=
  match addCheck env m new with
  | .error message => (m, .error message)
  | .ok _ =>
    match validated new answer with
    | .error e => (m, .error (message e))
    | .ok cred =>
      let newId := nextId m.entries
      let entry : CredentialEntry :=
        { id := newId, credentials := addFinish m.config newId new cred }
      ({ m with entries := m.entries ++ [entry] },
        (persistCredentials { file with isMultipleFormat := true }).map fun _ => newId)

/-- The operations that are to leave the pool alone when they fail. -/
inductive AdminCall where
  | addCredential (new : KiroCredentials) (answer : Except RefreshError RefreshResponse)
  | deleteCredential (id : Nat)
  | updateCredential (id : Nat) (email proxyUrl proxyUsername proxyPassword :
      Option (Option String))
  | updateAuthMetadata (id : Nat) (metadata : KiroCredentials)
  | updateRefreshToken (id : Nat) (newRefreshToken : String)
      (newAccessToken newExpiresAt : Option String)
  | setDisabled (id : Nat) (disabled : Bool)
  | disableQuotaExceeded (id : Nat)
  | resetAndEnable (id : Nat)
  | setEndpoint (id : Nat) (endpoint : Option String)

def AdminCall.run : AdminCall → Outcome Unit
  | .addCredential new answer =>
    let outcome := Administration.addCredential env file m new answer
    (outcome.1, outcome.2.map fun _ => ())
  | .deleteCredential id => Administration.deleteCredential file m id
  | .updateCredential id email proxyUrl proxyUsername proxyPassword =>
    Administration.updateCredential file m id email proxyUrl proxyUsername proxyPassword
  | .updateAuthMetadata id metadata => Administration.updateAuthMetadata file m id metadata
  | .updateRefreshToken id token access expires =>
    Administration.updateRefreshToken env file m id token access expires
  | .setDisabled id disabled => Administration.setDisabled file m id disabled
  | .disableQuotaExceeded id => Administration.disableQuotaExceeded file m id
  | .resetAndEnable id => Administration.resetAndEnable file m id
  | .setEndpoint id endpoint => Administration.setEndpoint file m id endpoint

/-- The same entries and the same current id. -/
def Same (m m' : MultiTokenManager) : Prop :=
  m'.entries = m.entries ∧ m'.currentId = m.currentId

/-- An operation that fails leaves the entries and the current id as they were. -/
def Atomic (call : AdminCall) : Prop :=
  ∀ message, (call.run env file m).2 = .error message → Same m (call.run env file m).1

/-- The file cannot be written. Behind an addition it always has the format with several
credentials. -/
def Unwritable : AdminCall → Prop
  | .addCredential _ _ => file.credentialsPath = true ∧ file.write.isOk = false
  | _ => file.isMultipleFormat = true ∧ file.credentialsPath = true ∧ file.write.isOk = false

/-- No other entry than the first of its id has the refresh token. -/
def OthersLack (token : String) : Prop :=
  ∀ idx, m.entries.findIdx? (·.id == id) = some idx → ∀ e ∈ m.entries.eraseIdx idx, ∀ old,
    e.credentials.refreshToken = some old → env.sha256Hex old ≠ env.sha256Hex token

/-- The operation is accepted, and asks for something that is not so already. -/
def Alters : AdminCall → Prop
  | .addCredential new answer =>
    (addCheck env m new).isOk = true ∧ (validated new answer).isOk = true
  | .deleteCredential id => ∃ e, m.find id = some e ∧ e.disabled = true
  | .updateCredential id email proxyUrl proxyUsername proxyPassword =>
    ∃ e, m.find id = some e ∧
      ¬ (editField email e.credentials.email = e.credentials.email ∧
        editField proxyUrl e.credentials.proxyUrl = e.credentials.proxyUrl ∧
        editField proxyUsername e.credentials.proxyUsername = e.credentials.proxyUsername ∧
        editField proxyPassword e.credentials.proxyPassword = e.credentials.proxyPassword)
  | .updateAuthMetadata id metadata =>
    ∃ e, m.find id = some e ∧ withMetadata e.credentials metadata ≠ e.credentials
  | .updateRefreshToken id token access expires =>
    ∃ e, m.find id = some e ∧ e.disabled = true ∧
      (validateRefreshToken { e.credentials with refreshToken := token }).isOk = true ∧
      OthersLack env m id token ∧
      ¬ (e.credentials.refreshToken = some token ∧ e.credentials.accessToken = access ∧
        e.credentials.expiresAt = expires ∧ e.refreshFailureCount = 0)
  | .setDisabled id true =>
    ∃ e, m.find id = some e ∧ ¬ (e.disabled = true ∧ e.disabledReason = some .manual)
  | .setDisabled id false =>
    ∃ e, m.find id = some e ∧
      ¬ (e.disabled = false ∧ e.failureCount = 0 ∧ e.refreshFailureCount = 0 ∧
        e.disabledReason = none ∧ e.throttledUntil = none ∧ e.rateLimitedUntil = none)
  | .disableQuotaExceeded id =>
    ∃ e, m.find id = some e ∧ ¬ (e.disabled = true ∧ e.disabledReason = some .quotaExceeded)
  | .resetAndEnable id =>
    ∃ e, m.find id = some e ∧ e.disabledReason ≠ some .invalidConfig ∧
      ¬ (e.failureCount = 0 ∧ e.totalFailureCount = 0 ∧ e.refreshFailureCount = 0 ∧
        e.disabled = false ∧ e.disabledReason = none ∧ e.throttledUntil = none)
  | .setEndpoint id endpoint => ∃ e, m.find id = some e ∧ e.credentials.endpoint ≠ endpoint

variable {env file m id}

theorem persistCredentials_fails (file : CredentialsFile) : (persistCredentials file).isOk = false ↔
    file.isMultipleFormat = true ∧ file.credentialsPath = true ∧ file.write.isOk = false := by
  unfold persistCredentials
  cases file.isMultipleFormat with
  | false => simp [Except.isOk, Except.toBool]
  | true =>
    cases file.credentialsPath with
    | false => simp [Except.isOk, Except.toBool]
    | true => cases file.write <;> simp [Except.isOk, Except.toBool]

theorem kept_iff {m' : MultiTokenManager} {α β : Type} {f : α → β} {written : Except String α} :
    (∀ message, written.map f = .error message → Same m m') ↔
      ¬ (written.isOk = false ∧ ¬ Same m m') := by
  cases written with
  | error message =>
    constructor
    · rintro kept ⟨-, changed⟩
      exact changed (kept message rfl)
    · intro kept _ _
      by_contra changed
      exact kept ⟨rfl, changed⟩
  | ok a =>
    constructor
    · rintro - ⟨never, -⟩
      cases never
    · intro _ message never
      cases never

theorem atomic_thenPersist {result : Except String MultiTokenManager} :
    (∀ message, (thenPersist file m result).2 = .error message →
        Same m (thenPersist file m result).1) ↔
      ¬ ((persistCredentials file).isOk = false ∧ ∃ m', result = .ok m' ∧ ¬ Same m m') := by
  cases result with
  | error message =>
    constructor
    · rintro - ⟨-, m', never, -⟩
      cases never
    · intro _ _ _
      exact ⟨rfl, rfl⟩
  | ok m' =>
    unfold thenPersist
    rw [kept_iff]
    constructor
    · rintro kept ⟨fails, _, ok, changed⟩
      cases ok
      exact kept ⟨fails, changed⟩
    · rintro kept ⟨fails, changed⟩
      exact kept ⟨fails, m', rfl, changed⟩

theorem updateFirst_eq_self {f : CredentialEntry → CredentialEntry} (es : List CredentialEntry) :
    updateFirst id f es = es ↔ ∀ e, es.find? (·.id == id) = some e → f e = e := by
  induction es with
  | nil => exact ⟨fun _ e never => (by cases never), fun _ => rfl⟩
  | cons e es ih =>
    unfold updateFirst
    by_cases here : e.id = id
    · rw [if_pos here, List.find?_cons, beq_iff_eq.mpr here]
      constructor
      · rintro same _ ⟨⟩
        exact (List.cons.inj same).1
      · intro same
        rw [same e rfl]
    · rw [if_neg here, List.find?_cons, beq_false_of_ne here, List.cons.injEq, ← ih]
      exact ⟨fun same => same.2, fun same => ⟨rfl, same⟩⟩

theorem not_same_update {f : CredentialEntry → CredentialEntry} :
    ¬ Same m (m.update id f) ↔ ∃ e, m.find id = some e ∧ f e ≠ e := by
  have same_iff : Same m (m.update id f) ↔ updateFirst id f m.entries = m.entries :=
    ⟨fun same => same.1, fun same => ⟨same, rfl⟩⟩
  rw [same_iff, updateFirst_eq_self]
  constructor
  · intro changed
    by_contra none
    refine changed fun e found => ?_
    by_contra differs
    exact none ⟨e, found, differs⟩
  · rintro ⟨e, found, differs⟩ same
    exact differs (same e found)

theorem edits_iff {f : CredentialEntry → CredentialEntry} :
    (∃ m', m.editEntry id f = .ok m' ∧ ¬ Same m m') ↔ ∃ e, m.find id = some e ∧ f e ≠ e := by
  rw [← not_same_update]
  unfold editEntry
  constructor
  · rintro ⟨m', ok, changed⟩
    split at ok
    · cases ok
    · cases ok
      exact changed
  · intro changed
    refine ⟨_, ?_, changed⟩
    obtain ⟨e, found, -⟩ := not_same_update.mp changed
    rw [found]

theorem deletes_iff :
    (∃ m', ((m.deleteEntry id).map fun deleted =>
        (if deleted.2 then deleted.1.selectHighestPriority
          else deleted.1).resetCurrentIfEmpty) = .ok m' ∧ ¬ Same m m') ↔
      ∃ e, m.find id = some e ∧ e.disabled = true := by
  have kept (m : MultiTokenManager) : m.resetCurrentIfEmpty.entries = m.entries := by
    unfold resetCurrentIfEmpty
    split_ifs <;> rfl
  unfold deleteEntry
  cases found : m.find id with
  | none => exact ⟨fun never => (by cases never.choose_spec.1), fun ⟨_, never, _⟩ => by cases never⟩
  | some e =>
    dsimp only
    cases disabled : e.disabled with
    | false =>
      rw [if_pos (by decide)]
      constructor
      · rintro ⟨_, never, -⟩
        cases never
      · rintro ⟨_, same, disabled'⟩
        cases same
        rw [disabled] at disabled'
        cases disabled'
    | true =>
      rw [if_neg (by decide)]
      refine ⟨fun _ => ⟨e, rfl, disabled⟩, fun _ => ⟨_, rfl, fun same => ?_⟩⟩
      have entries : m.entries.filter (·.id != id) = m.entries := by
        have first := same.1
        dsimp only at first
        rw [kept] at first
        split_ifs at first
        · unfold selectHighestPriority at first
          rwa [entries_switchToBest] at first
        · exact first
      have mem : e ∈ m.entries.filter (·.id != id) := by
        rw [entries]
        exact List.mem_of_find?_eq_some found
      have other := List.of_mem_filter mem
      have here := List.find?_some found
      simp only [bne_iff_ne, beq_iff_eq] at other here
      exact other here

theorem resets_iff :
    (∃ m', m.resetAndEnable id = .ok m' ∧ ¬ Same m m') ↔
      ∃ e, m.find id = some e ∧ e.disabledReason ≠ some .invalidConfig ∧
        ¬ (e.failureCount = 0 ∧ e.totalFailureCount = 0 ∧ e.refreshFailureCount = 0 ∧
          e.disabled = false ∧ e.disabledReason = none ∧ e.throttledUntil = none) := by
  unfold MultiTokenManager.resetAndEnable
  cases found : m.find id with
  | none => exact ⟨fun never => (by cases never.choose_spec.1), fun ⟨_, never, _⟩ => by cases never⟩
  | some e =>
    dsimp only
    split_ifs with invalid
    · constructor
      · rintro ⟨_, never, -⟩
        cases never
      · rintro ⟨_, same, valid, -⟩
        cases same
        exact absurd invalid valid
    · constructor
      · rintro ⟨m', ok, changed⟩
        cases ok
        obtain ⟨e', found', differs⟩ := not_same_update.mp changed
        rw [found] at found'
        cases found'
        refine ⟨e, rfl, invalid, ?_⟩
        rintro ⟨failures, total, refreshes, enabled, reason, throttled⟩
        apply differs
        cases e
        simp_all
      · rintro ⟨_, same, -, changes⟩
        cases same
        refine ⟨_, rfl, not_same_update.mpr ⟨e, found, fun same => changes ?_⟩⟩
        rw [← same]
        exact ⟨rfl, rfl, rfl, rfl, rfl, rfl⟩

theorem othersLack_iff {idx : Nat} {token : String}
    (position : m.entries.findIdx? (·.id == id) = some idx) :
    ((m.entries.eraseIdx idx).any fun e =>
      e.credentials.refreshToken.any (env.sha256Hex · == env.sha256Hex token)) = false ↔
      OthersLack env m id token := by
  unfold OthersLack
  rw [position]
  simp only [List.any_eq_false, Option.any_eq_true, beq_iff_eq, not_exists, not_and,
    Option.some.injEq, forall_eq']

theorem accepts_iff {token : String} (access expires : Option String) :
    (∃ m', m.updateRefreshToken env id token access expires = .ok m') ↔
      ∃ e, m.find id = some e ∧ e.disabled = true ∧
        (validateRefreshToken { e.credentials with refreshToken := token }).isOk = true ∧
        OthersLack env m id token := by
  unfold MultiTokenManager.updateRefreshToken
  cases position : m.entries.findIdx? (·.id == id) with
  | none =>
    constructor
    · rintro ⟨_, never⟩
      cases never
    · rintro ⟨e, found, -⟩
      unfold find at found
      have here := List.find?_some found
      rw [List.findIdx?_eq_none_iff] at position
      rw [position e (List.mem_of_find?_eq_some found)] at here
      cases here
  | some idx =>
    dsimp only
    rw [← find_of_findIdx? position]
    cases found : m.find id with
    | none =>
      constructor
      · rintro ⟨_, never⟩
        cases never
      · rintro ⟨_, never, -⟩
        cases never
    | some e =>
      simp only [Option.some.injEq, exists_eq_left', ← othersLack_iff position]
      generalize ((m.entries.eraseIdx idx).any fun e =>
        e.credentials.refreshToken.any (env.sha256Hex · == env.sha256Hex token)) = taken
      cases e.disabled with
      | false => simp
      | true =>
        cases validateRefreshToken { e.credentials with refreshToken := token } with
        | error message => simp [Except.isOk, Except.toBool]
        | ok _ => cases taken <;> simp [Except.isOk, Except.toBool]

theorem retokens_iff {token : String} {access expires : Option String} :
    (∃ m', m.updateRefreshToken env id token access expires = .ok m' ∧ ¬ Same m m') ↔
      ∃ e, m.find id = some e ∧ e.disabled = true ∧
        (validateRefreshToken { e.credentials with refreshToken := token }).isOk = true ∧
        OthersLack env m id token ∧
        ¬ (e.credentials.refreshToken = some token ∧ e.credentials.accessToken = access ∧
          e.credentials.expiresAt = expires ∧ e.refreshFailureCount = 0) := by
  constructor
  · rintro ⟨m', ok, changed⟩
    obtain ⟨e, found, disabled, valid, lack⟩ := (accepts_iff access expires).mp ⟨m', ok⟩
    obtain ⟨-, -, -, -, -, -, rfl⟩ := updateRefreshToken_ok ok
    obtain ⟨e', found', differs⟩ := not_same_update.mp changed
    rw [found] at found'
    cases found'
    refine ⟨e, found, disabled, valid, lack, ?_⟩
    rintro ⟨refresh, acc, exp, count⟩
    apply differs
    rw [← refresh, ← acc, ← exp, ← count]
  · rintro ⟨e, found, disabled, valid, lack, changes⟩
    obtain ⟨m', ok⟩ := (accepts_iff access expires).mpr ⟨e, found, disabled, valid, lack⟩
    refine ⟨m', ok, ?_⟩
    obtain ⟨-, -, -, -, -, -, rfl⟩ := updateRefreshToken_ok ok
    refine not_same_update.mpr ⟨e, found, fun same => changes ?_⟩
    rw [← same]
    exact ⟨rfl, rfl, rfl, rfl⟩

theorem edit_iff {f : CredentialEntry → CredentialEntry} (asks : CredentialEntry → Prop)
    (same : ∀ e, f e = e ↔ ¬ asks e) :
    (∃ m', m.editEntry id f = .ok m' ∧ ¬ Same m m') ↔ ∃ e, m.find id = some e ∧ asks e := by
  rw [edits_iff]
  constructor
  · rintro ⟨e, found, differs⟩
    exact ⟨e, found, not_not.mp fun none => differs ((same e).mpr none)⟩
  · rintro ⟨e, found, asked⟩
    exact ⟨e, found, fun still => (same e).mp still asked⟩

theorem atomic_of_changes {result : Except String MultiTokenManager} {alters : Prop}
    (changes : (∃ m', result = .ok m' ∧ ¬ Same m m') ↔ alters) :
    (∀ message, (thenPersist file m result).2 = .error message →
        Same m (thenPersist file m result).1) ↔
      ¬ ((file.isMultipleFormat = true ∧ file.credentialsPath = true ∧ file.write.isOk = false) ∧
        alters) := by
  rw [atomic_thenPersist, persistCredentials_fails, changes]

theorem atomic_addCredential {new : KiroCredentials}
    {answer : Except RefreshError RefreshResponse} :
    Atomic env file m (.addCredential new answer) ↔
      ¬ (Unwritable file (.addCredential new answer) ∧
        Alters env m (.addCredential new answer)) := by
  unfold Atomic AdminCall.run addCredential Unwritable Alters
  dsimp only
  cases addCheck env m new with
  | error message =>
    constructor
    · rintro - ⟨-, never, -⟩
      cases never
    · intro _ _ _
      exact ⟨rfl, rfl⟩
  | ok _ =>
    dsimp only
    cases validated new answer with
    | error e =>
      constructor
      · rintro - ⟨-, -, never⟩
        cases never
      · intro _ _ _
        exact ⟨rfl, rfl⟩
    | ok cred =>
      dsimp only
      have grows : ¬ Same m { m with entries := m.entries ++
          [{ id := nextId m.entries,
             credentials := addFinish m.config (nextId m.entries) new cred }] } := by
        intro same
        have lengths := congrArg List.length same.1
        rw [List.length_append, List.length_singleton] at lengths
        omega
      have fails := persistCredentials_fails { file with isMultipleFormat := true }
      have mapped : ∀ written : Except String Bool,
          ((written.map fun _ => nextId m.entries).map fun _ => ()) = written.map fun _ => () := by
        intro written
        cases written <;> rfl
      rw [mapped]
      refine kept_iff.trans (not_congr ?_)
      rw [fails]
      constructor
      · rintro ⟨⟨-, unwritable⟩, -⟩
        exact ⟨unwritable, rfl, rfl⟩
      · rintro ⟨unwritable, -⟩
        exact ⟨⟨rfl, unwritable⟩, grows⟩

theorem atomic_updateAuthMetadata {metadata : KiroCredentials} :
    Atomic env file m (.updateAuthMetadata id metadata) ↔
      ¬ (Unwritable file (.updateAuthMetadata id metadata) ∧
        Alters env m (.updateAuthMetadata id metadata)) := by
  unfold Atomic AdminCall.run updateAuthMetadata Unwritable Alters
  dsimp only
  cases found : m.find id with
  | none =>
    constructor
    · rintro - ⟨-, _, never, -⟩
      cases never
    · intro _ _ _
      exact ⟨rfl, rfl⟩
  | some e =>
    dsimp only
    split_ifs with there
    · constructor
      · rintro - ⟨-, _, same, differs⟩
        cases same
        exact absurd there differs
      · intro _ message never
        cases never
    · have same (e : CredentialEntry) :
          { e with credentials := withMetadata e.credentials metadata } = e ↔
            ¬ withMetadata e.credentials metadata ≠ e.credentials := by
        constructor
        · intro same differs
          exact differs (congrArg CredentialEntry.credentials same)
        · intro same
          rw [not_not.mp same]
      have changes : (∃ m', m.editEntry id (fun e => { e with
            credentials := withMetadata e.credentials metadata }) = .ok m' ∧ ¬ Same m m') ↔
          ∃ e, m.find id = some e ∧ withMetadata e.credentials metadata ≠ e.credentials :=
        edit_iff _ same
      rw [found] at changes
      exact atomic_of_changes changes

/-- An operation that fails leaves the pool alone, exactly if the file could be written, or the
operation is not accepted or asks for nothing new. -/
theorem atomic_iff (env : Env) (file : CredentialsFile) (m : MultiTokenManager)
    (call : AdminCall) :
    Atomic env file m call ↔ ¬ (Unwritable file call ∧ Alters env m call) := by
  cases call with
  | addCredential new answer => exact atomic_addCredential
  | updateAuthMetadata id metadata => exact atomic_updateAuthMetadata
  | deleteCredential id => exact atomic_of_changes deletes_iff
  | resetAndEnable id => exact atomic_of_changes resets_iff
  | updateRefreshToken id token access expires => exact atomic_of_changes retokens_iff
  | updateCredential id email proxyUrl proxyUsername proxyPassword =>
    refine atomic_of_changes (edit_iff _ fun e => ?_)
    rw [not_not]
    constructor
    · intro same
      have credentials := congrArg CredentialEntry.credentials same
      exact ⟨congrArg KiroCredentials.email credentials,
        congrArg KiroCredentials.proxyUrl credentials,
        congrArg KiroCredentials.proxyUsername credentials,
        congrArg KiroCredentials.proxyPassword credentials⟩
    · rintro ⟨email, url, username, password⟩
      rw [email, url, username, password]
  | setDisabled id disabled =>
    cases disabled with
    | true =>
      refine atomic_of_changes (edit_iff _ fun e => ?_)
      rw [not_not]
      constructor
      · intro same
        exact ⟨(congrArg CredentialEntry.disabled same).symm,
          (congrArg CredentialEntry.disabledReason same).symm⟩
      · rintro ⟨disabled, reason⟩
        cases e
        simp_all
    | false =>
      refine atomic_of_changes (edit_iff _ fun e => ?_)
      rw [not_not]
      constructor
      · intro same
        rw [← same]
        exact ⟨rfl, rfl, rfl, rfl, rfl, rfl⟩
      · rintro ⟨enabled, failures, refreshes, reason, throttled, limited⟩
        cases e
        simp_all
  | disableQuotaExceeded id =>
    refine atomic_of_changes (edit_iff _ fun e => ?_)
    rw [not_not]
    constructor
    · intro same
      rw [← same]
      exact ⟨rfl, rfl⟩
    · rintro ⟨disabled, reason⟩
      cases e
      simp_all
  | setEndpoint id endpoint =>
    refine atomic_of_changes (edit_iff _ fun e => ?_)
    rw [not_not]
    constructor
    · intro same
      rw [← same]
    · intro same
      rw [← same]

def fullDisk : CredentialsFile := ⟨true, true, .error "No space left on device"⟩

theorem disabled_unwritten :
    ((Startup.MultiTokenManager.new Invariants.oneToken).toOption.any fun m =>
      let outcome := AdminCall.run plainEnv fullDisk m (.setDisabled 1 true)
      !outcome.2.isOk && outcome.1.entries != m.entries) = true := by
  decide +kernel

/-- The entry is disabled although the answer is an error. -/
theorem failed_write_disables : ¬ ∀ (env : Env) (src : Sources) (m : MultiTokenManager),
    Startup.MultiTokenManager.new src = .ok m → ∀ (trace : List (System × Action)) (s : System),
      PoolRun env m trace s → ∀ (file : CredentialsFile) (call : AdminCall),
        Atomic env file s.manager call := by
  intro claim
  obtain ⟨m, started, changed⟩ := (Option.any_eq_true _ _).mp disabled_unwritten
  have new : Startup.MultiTokenManager.new Invariants.oneToken = .ok m := by
    cases result : Startup.MultiTokenManager.new Invariants.oneToken with
    | error e =>
      rw [result] at started
      cases started
    | ok m' =>
      rw [result] at started
      cases started
      rfl
  simp only [Bool.and_eq_true, Bool.not_eq_true', bne_iff_ne] at changed
  have kept := claim plainEnv Invariants.oneToken m new [] (System.initial m) .nil fullDisk
    (.setDisabled 1 true)
  unfold Atomic at kept
  have manager : (System.initial m).manager = m := rfl
  rw [manager] at kept
  cases answer : (AdminCall.run plainEnv fullDisk m (.setDisabled 1 true)).2 with
  | error message => exact changed.2 (kept message answer).1
  | ok _ =>
    rw [answer] at changed
    cases changed.1

end KiroRs.Pool.Administration
