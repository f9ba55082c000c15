/- Path: KiroRs/Pool/Manager
   source: src/kiro/token_manager.rs
   digest: The entries of the credential pool, credential selection and the operations that run
   under one lock. -/

import Mathlib.Data.List.MinMax
import Mathlib.Data.Prod.Lex
import KiroRs.Pool.Credentials

set_option autoImplicit false
set_option relaxedAutoImplicit false

namespace KiroRs.Pool.Manager

open KiroRs.Lib.Text
open KiroRs.Pool.Credentials

inductive DisabledReason where
  | manual | tooManyFailures | tooManyRefreshFailures | quotaExceeded | invalidRefreshToken
  | invalidConfig
  deriving DecidableEq, Repr

/-- One entry of the pool. Points of the monotonic clock are natural numbers. -/
structure CredentialEntry where
  id : Nat
  credentials : KiroCredentials
  failureCount : Nat := 0
  totalFailureCount : Nat := 0
  refreshFailureCount : Nat := 0
  disabled : Bool := false
  disabledReason : Option DisabledReason := none
  successCount : Nat := 0
  lastUsedAt : Option String := none
  throttledUntil : Option Nat := none
  rateLimitedUntil : Option Nat := none
  deriving DecidableEq, Repr

/-- The shared state of `MultiTokenManager` that its operations read and write. -/
structure MultiTokenManager where
  config : Config
  entries : List CredentialEntry
  currentId : Nat
  loadBalancingMode : String
  enterpriseProfileFetchAttempted : List Nat
  deriving DecidableEq, Repr

def maxFailuresPerCredential : Nat := 3

/-- A cooldown deadline that lies ahead. -/
def coolingDown (until_ : Option Nat) (now : Nat) : Bool := until_.any (now < ·)

/-- The model name is one of an opus model. -/
def isOpus (env : Env) (model : Option String) : Bool :=
  model.any fun m => contains (env.caseMaps.toLowercase m) "opus"

/-- The filter of `select_next_credential`. -/
def CredentialEntry.selectable (env : Env) (now : Nat) (model : Option String)
    (e : CredentialEntry) : Bool :=
  if e.disabled then false
  else if coolingDown e.throttledUntil now then false
  else if coolingDown e.rateLimitedUntil now then false
  else if isOpus env model && !e.credentials.supportsOpus env then false
  else true

/-- `anyhow!("凭据不存在: {}")`. -/
def missing (id : Nat) : String := "凭据不存在: " ++ toString id

/-- The outcome of an attempt to write the credentials file. -/
abbrev Persisted := Except String Unit

namespace MultiTokenManager

variable (env : Env) (m : MultiTokenManager)

def find (id : Nat) : Option CredentialEntry := m.entries.find? (·.id == id)

/-- Change the first entry with the given id. -/
def updateFirst (id : Nat) (f : CredentialEntry → CredentialEntry) :
    List CredentialEntry → List CredentialEntry
  | [] => []
  | e :: es => if e.id = id then f e :: es else e :: updateFirst id f es

def update (id : Nat) (f : CredentialEntry → CredentialEntry) : MultiTokenManager :=
  { m with entries := updateFirst id f m.entries }

def updateCredentials (id : Nat) (f : KiroCredentials → KiroCredentials) : MultiTokenManager :=
  m.update id fun e => { e with credentials := f e.credentials }

def anyEnabled : Bool := m.entries.any (!·.disabled)

/-- The enabled entry of smallest priority value among those that pass the test. -/
def bestEnabled (test : CredentialEntry → Bool) : Option CredentialEntry :=
  (m.entries.filter fun e => !e.disabled && test e).argmin (·.credentials.priority)

/-- Make the best enabled entry the current one, where there is one. -/
def switchToBest : MultiTokenManager :=
  match m.bestEnabled fun _ => true with
  | some next => { m with currentId := next.id }
  | none => m

@[simp] theorem entries_switchToBest {m : MultiTokenManager} :
    m.switchToBest.entries = m.entries := by
  unfold switchToBest
  split <;> rfl

def selectNextCredential (now : Nat) (model : Option String) : Option CredentialEntry :=
  let available := m.entries.filter (·.selectable env now model)
  if m.loadBalancingMode = "balanced" then
    available.argmin fun e => toLex (e.successCount, e.credentials.priority)
  else available.argmin (·.credentials.priority)

/-- The fast path of `acquire_context` in priority mode: the current entry, when it is usable. The
model is not looked at. -/
def currentHit (now : Nat) : Option CredentialEntry :=
  m.entries.find? fun e => e.id == m.currentId && !e.disabled &&
    !coolingDown e.throttledUntil now && !coolingDown e.rateLimitedUntil now

def canHeal : Bool :=
  m.entries.any fun e => e.disabled && e.disabledReason == some .tooManyFailures

/-- Self-healing: every entry disabled for failures is enabled again. -/
def heal : MultiTokenManager :=
  { m with entries := m.entries.map fun e =>
      if e.disabledReason = some .tooManyFailures then
        { e with disabled := false, disabledReason := none, failureCount := 0 }
      else e }

def selectHighestPriority : MultiTokenManager := m.switchToBest

def reportSuccess (id : Nat) (stamp : String) : MultiTokenManager :=
  m.update id fun e =>
    { e with
      failureCount := 0
      refreshFailureCount := 0
      successCount := e.successCount + 1
      lastUsedAt := some stamp
      throttledUntil := none
      rateLimitedUntil := none }

/-- A report on an entry that exists and is enabled; on any other it only counts what is left. -/
def onEnabled (id : Nat) (report : CredentialEntry → MultiTokenManager × Bool) :
    MultiTokenManager × Bool :=
  match m.find id with
  | none => (m, m.anyEnabled)
  | some e => if e.disabled then (m, m.anyEnabled) else report e

def reportFailure (id : Nat) (stamp : String) : MultiTokenManager × Bool :=
  m.onEnabled id fun e =>
    let failureCount := e.failureCount + 1
    let counted (e : CredentialEntry) : CredentialEntry :=
      { e with
        failureCount := failureCount
        totalFailureCount := e.totalFailureCount + 1
        lastUsedAt := some stamp }
    if failureCount ≥ maxFailuresPerCredential then
      let m := (m.update id fun e =>
        { counted e with disabled := true, disabledReason := some .tooManyFailures }).switchToBest
      (m, m.anyEnabled)
    else
      let m := m.update id counted
      (m, m.anyEnabled)

def reportQuotaExhausted (id : Nat) (stamp : String) : MultiTokenManager × Bool :=
  m.onEnabled id fun _ =>
    let m := m.update id fun e =>
      { e with
        disabled := true
        disabledReason := some .quotaExceeded
        lastUsedAt := some stamp
        failureCount := maxFailuresPerCredential
        totalFailureCount := e.totalFailureCount + 1 }
    (m.switchToBest, (m.bestEnabled fun _ => true).isSome)

def reportRefreshFailure (id : Nat) (stamp : String) : MultiTokenManager × Bool :=
  m.onEnabled id fun e =>
    let refreshFailureCount := e.refreshFailureCount + 1
    let counted (e : CredentialEntry) : CredentialEntry :=
      { e with lastUsedAt := some stamp, refreshFailureCount := refreshFailureCount }
    if refreshFailureCount < maxFailuresPerCredential then
      let m := m.update id counted
      (m, m.anyEnabled)
    else
      let m := m.update id fun e =>
        { counted e with disabled := true, disabledReason := some .tooManyRefreshFailures }
      (m.switchToBest, (m.bestEnabled fun _ => true).isSome)

def reportRefreshTokenInvalid (id : Nat) (stamp : String) : MultiTokenManager × Bool :=
  m.onEnabled id fun _ =>
    let m := m.update id fun e =>
      { e with
        lastUsedAt := some stamp
        disabled := true
        disabledReason := some .invalidRefreshToken }
    (m.switchToBest, (m.bestEnabled fun _ => true).isSome)

def switchToNext : MultiTokenManager × Bool :=
  match m.bestEnabled fun e => e.id != m.currentId with
  | some next => ({ m with currentId := next.id }, true)
  | none => (m, m.entries.any fun e => e.id == m.currentId && !e.disabled)

/-- The later of an existing deadline and a new one. -/
def extend (prev : Option Nat) (until_ : Nat) : Option Nat :=
  match prev with
  | some prev => if prev > until_ then some prev else some until_
  | none => some until_

/-- `later` is the clock when the remaining entries are counted. -/
def reportAccountThrottled (id now later cooldown : Nat) : MultiTokenManager × Nat :=
  let m := m.update id fun e =>
    { e with
      throttledUntil := extend e.throttledUntil (now + cooldown)
      totalFailureCount := e.totalFailureCount + 1 }
  (m, (m.entries.filter fun e => !e.disabled && !coolingDown e.throttledUntil later).length)

def reportRateLimited (id now later cooldown : Nat) : MultiTokenManager × Bool :=
  let m := m.update id fun e =>
    { e with
      rateLimitedUntil := extend e.rateLimitedUntil (now + cooldown)
      totalFailureCount := e.totalFailureCount + 1 }
  let other (e : CredentialEntry) : Bool := e.id != id && !coolingDown e.throttledUntil later &&
    !coolingDown e.rateLimitedUntil later
  let left := (m.entries.filter fun e => !e.disabled && other e) != []
  if m.currentId = id then
    match m.bestEnabled other with
    | some next => ({ m with currentId := next.id }, left)
    | none => (m, left)
  else (m, left)

/-- A change of one entry, refused when the entry does not exist. -/
def editEntry (id : Nat) (f : CredentialEntry → CredentialEntry) :
    Except String MultiTokenManager :=
  match m.find id with
  | none => .error (missing id)
  | some _ => .ok (m.update id f)

def setDisabled (id : Nat) (disabled : Bool) : Except String MultiTokenManager :=
  m.editEntry id fun e =>
    if disabled then { e with disabled := true, disabledReason := some .manual }
    else
      { e with
        disabled := false
        failureCount := 0
        refreshFailureCount := 0
        disabledReason := none
        throttledUntil := none
        rateLimitedUntil := none }

def clearThrottle (id : Nat) : Except String MultiTokenManager :=
  m.editEntry id fun e => { e with throttledUntil := none, rateLimitedUntil := none }

def disableQuotaExceeded (id : Nat) : Except String MultiTokenManager :=
  m.editEntry id fun e => { e with disabled := true, disabledReason := some .quotaExceeded }

/-- The first lock section of `set_priority`; `select_highest_priority` is the second. -/
def setPriorityOf (id priority : Nat) : Except String MultiTokenManager :=
  m.editEntry id fun e => { e with credentials.priority := priority }

def setEndpoint (id : Nat) (endpoint : Option String) : Except String MultiTokenManager :=
  m.editEntry id fun e => { e with credentials.endpoint := endpoint }

def resetAndEnable (id : Nat) : Except String MultiTokenManager :=
  match m.find id with
  | none => .error (missing id)
  | some e =>
      if e.disabledReason = some .invalidConfig then
        .error ("凭据 #" ++ toString id ++ " 因配置无效被禁用，请修正配置后重启服务")
      else
        .ok (m.update id fun e =>
          { e with
            failureCount := 0
            totalFailureCount := 0
            refreshFailureCount := 0
            disabled := false
            disabledReason := none
            throttledUntil := none })

def resetSuccessCount (id : Option Nat) : Except String MultiTokenManager :=
  match id with
  | some id => m.editEntry id fun e => { e with successCount := 0 }
  | none => .ok { m with entries := m.entries.map fun e => { e with successCount := 0 } }

/-- A field edit: `none` leaves the field, an empty text clears it. -/
def editField (edit : Option (Option String)) (old : Option String) : Option String :=
  match edit with
  | some value => value.filter (· ≠ "")
  | none => old

def updateCredential (id : Nat) (email proxyUrl proxyUsername proxyPassword :
    Option (Option String)) : Except String MultiTokenManager :=
  m.editEntry id fun e =>
    { e with credentials := { e.credentials with
        email := editField email e.credentials.email
        proxyUrl := editField proxyUrl e.credentials.proxyUrl
        proxyUsername := editField proxyUsername e.credentials.proxyUsername
        proxyPassword := editField proxyPassword e.credentials.proxyPassword } }

/-- The metadata fields that are present replace those of the credentials. -/
def withMetadata (c metadata : KiroCredentials) : KiroCredentials :=
  { c with
    authMethod := metadata.authMethod.or c.authMethod
    provider := metadata.provider.or c.provider
    clientId := metadata.clientId.or c.clientId
    clientSecret := metadata.clientSecret.or c.clientSecret
    startUrl := metadata.startUrl.or c.startUrl
    region := metadata.region.or c.region
    authRegion := metadata.authRegion.or c.authRegion
    apiRegion := metadata.apiRegion.or c.apiRegion
    profileArn := metadata.profileArn.or c.profileArn }

def updateAuthMetadata (id : Nat) (metadata : KiroCredentials) :
    Except String MultiTokenManager :=
  m.editEntry id fun e => { e with credentials := withMetadata e.credentials metadata }

/-- The first lock section of `delete_credential`, with whether the entry was the current one. -/
def deleteEntry (id : Nat) : Except String (MultiTokenManager × Bool) :=
  match m.find id with
  | none => .error (missing id)
  | some e =>
      if !e.disabled then .error ("只能删除已禁用的凭据（请先禁用凭据 #" ++ toString id ++ "）")
      else .ok ({ m with entries := m.entries.filter (·.id != id) }, m.currentId == id)

def resetCurrentIfEmpty : MultiTokenManager :=
  if m.entries = [] then { m with currentId := 0 } else m

def updateRefreshToken (id : Nat) (newRefreshToken : String)
    (newAccessToken newExpiresAt : Option String) : Except String MultiTokenManager :=
  match m.entries.findIdx? (·.id == id) with
  | none => .error (missing id)
  | some idx =>
      match m.entries[idx]? with
      | none => .error (missing id)
      | some e =>
          if !e.disabled then
            .error ("只能为已禁用的凭据更新 refreshToken（请先禁用凭据 #" ++ toString id ++ "）")
          else
            match validateRefreshToken { e.credentials with refreshToken := newRefreshToken } with
            | .error message => .error message
            | .ok _ =>
                let duplicate := (m.entries.eraseIdx idx).any fun e =>
                  e.credentials.refreshToken.any (env.sha256Hex · == env.sha256Hex newRefreshToken)
                if duplicate then .error "refreshToken 与其他凭据重复"
                else
                  .ok (m.update id fun e =>
                    { e with
                      credentials := { e.credentials with
                        refreshToken := some newRefreshToken
                        accessToken := newAccessToken
                        expiresAt := newExpiresAt }
                      refreshFailureCount := 0 })

def setLoadBalancingMode (mode : String) : Except String MultiTokenManager :=
  if mode ≠ "priority" ∧ mode ≠ "balanced" then .error ("无效的负载均衡模式: " ++ mode)
  else .ok { m with loadBalancingMode := mode }

variable {m} {id id' : Nat}

/-- A change that keeps ids is seen at its own id only. -/
theorem find_update {f : CredentialEntry → CredentialEntry} (keeps : ∀ e, (f e).id = e.id) :
    (m.update id f).find id' = if id' = id then (m.find id).map f else m.find id' := by
  simp only [find, update]
  induction m.entries with
  | nil => simp [updateFirst]
  | cons e es ih =>
      rw [updateFirst]
      by_cases here : e.id = id
      · rw [if_pos here, List.find?_cons, List.find?_cons, List.find?_cons, keeps, here]
        by_cases same : id' = id
        · simp [same]
        · have other : (id == id') = false := beq_false_of_ne (Ne.symm same)
          simp [other, same]
      · have skip : (e.id == id) = false := beq_false_of_ne here
        rw [if_neg here, List.find?_cons, List.find?_cons, List.find?_cons, skip, ih]
        by_cases same : id' = id
        · simp only [same, skip, if_true]
        · simp only [if_neg same]

theorem id_of_find {es : List CredentialEntry} {e : CredentialEntry}
    (found : es.find? (·.id == id) = some e) : e.id = id := by
  have here := List.find?_some found
  exact beq_iff_eq.mp here

theorem updateFirst_updateFirst {f g : CredentialEntry → CredentialEntry}
    (keeps : ∀ e, (f e).id = e.id) (es : List CredentialEntry) :
    updateFirst id g (updateFirst id f es) = updateFirst id (g ∘ f) es := by
  induction es with
  | nil => rfl
  | cons e es ih =>
      by_cases here : e.id = id
      · have still : (f e).id = id := by rw [keeps, here]
        rw [updateFirst, if_pos here, updateFirst, if_pos still, updateFirst, if_pos here]
        rfl
      · rw [updateFirst, if_neg here, updateFirst, if_neg here, updateFirst, if_neg here, ih]

theorem update_update {f g : CredentialEntry → CredentialEntry} (keeps : ∀ e, (f e).id = e.id) :
    (m.update id f).update id g = m.update id (g ∘ f) := by
  rw [update, update, update]
  exact congrArg (fun es => { m with entries := es }) (updateFirst_updateFirst keeps m.entries)

theorem find_map {f : CredentialEntry → CredentialEntry} (keeps : ∀ e, (f e).id = e.id)
    (es : List CredentialEntry) :
    (es.map f).find? (·.id == id) = (es.find? (·.id == id)).map f := by
  induction es with
  | nil => rfl
  | cons e es ih =>
      rw [List.map_cons, List.find?_cons, List.find?_cons, keeps, ih]
      cases e.id == id <;> rfl

end MultiTokenManager

end KiroRs.Pool.Manager
