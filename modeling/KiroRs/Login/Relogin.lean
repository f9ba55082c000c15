/- Path: KiroRs/Login/Relogin
   source: src/admin/service.rs, src/kiro/token_manager.rs
   digest: The update of a credential behind a new login: its four operations, when all of them
   succeed, and what is left of the credential when one does not. -/

import KiroRs.Pool.Administration

set_option autoImplicit false
set_option relaxedAutoImplicit false

namespace KiroRs.Login.Relogin

open KiroRs.Pool
open KiroRs.Pool.Administration (CredentialsFile Outcome OthersLack persistCredentials accepts_iff)
open KiroRs.Pool.Changes (updateRefreshToken_ok)
open KiroRs.Pool.Credentials
open KiroRs.Pool.Manager
open KiroRs.Pool.Manager.MultiTokenManager
open KiroRs.Pool.Selection (plainEnv)

def fileAt (file : CredentialsFile) (writes : Nat → Except String Unit) (i : Nat) :
    CredentialsFile := { file with write := writes i }

def andThen (outcome : Outcome Unit) (next : MultiTokenManager → Outcome Unit) : Outcome Unit :=
  match outcome.2 with
  | .error message => (outcome.1, .error message)
  | .ok _ => next outcome.1

variable (env : Env) (file : CredentialsFile) (writes : Nat → Except String Unit)
  (m : MultiTokenManager) (targetId : Nat) (refreshToken : String) (metadata : KiroCredentials)

def doReloginUpdate : Outcome Unit :=
  andThen (Administration.setDisabled (fileAt file writes 0) m targetId true) fun m =>
  andThen (Administration.updateRefreshToken env (fileAt file writes 1) m targetId refreshToken none
    none) fun m =>
  andThen (Administration.updateAuthMetadata (fileAt file writes 2) m targetId metadata) fun m =>
  Administration.resetAndEnable (fileAt file writes 3) m targetId

def off (e : CredentialEntry) : CredentialEntry :=
  { e with disabled := true, disabledReason := some .manual }

def retoken (e : CredentialEntry) : CredentialEntry :=
  { e with
    credentials := { e.credentials with
      refreshToken := some refreshToken
      accessToken := none
      expiresAt := none }
    refreshFailureCount := 0 }

def describe (e : CredentialEntry) : CredentialEntry :=
  { e with credentials := withMetadata e.credentials metadata }

def enable (e : CredentialEntry) : CredentialEntry :=
  { e with
    failureCount := 0
    totalFailureCount := 0
    refreshFailureCount := 0
    disabled := false
    disabledReason := none
    throttledUntil := none }

def relogged (e : CredentialEntry) : CredentialEntry :=
  enable (describe metadata (retoken refreshToken (off e)))

/-- The write behind an operation can be made. -/
def Persists (i : Nat) : Prop := (persistCredentials (fileAt file writes i)).isOk = true

/-- The token is one for this credential. -/
def Accepts (e : CredentialEntry) : Prop :=
  (validateRefreshToken { e.credentials with refreshToken := refreshToken }).isOk = true ∧
    OthersLack env m targetId refreshToken

/-- The metadata say something new. -/
def Describes (e : CredentialEntry) : Prop :=
  withMetadata (retoken refreshToken e).credentials metadata ≠ (retoken refreshToken e).credentials

variable {env file writes m targetId refreshToken metadata}
variable {f g : CredentialEntry → CredentialEntry} {e : CredentialEntry}

theorem findIdx_updateFirst (keeps : ∀ e, (f e).id = e.id) (es : List CredentialEntry) :
    (updateFirst targetId f es).findIdx? (·.id == targetId) =
      es.findIdx? (·.id == targetId) := by
  induction es with
  | nil => rfl
  | cons e es ih =>
    by_cases here : e.id = targetId
    · rw [updateFirst, if_pos here, List.findIdx?_cons, List.findIdx?_cons, keeps]
    · rw [updateFirst, if_neg here, List.findIdx?_cons, List.findIdx?_cons, ih]

theorem eraseIdx_updateFirst {idx : Nat} (es : List CredentialEntry)
    (position : es.findIdx? (·.id == targetId) = some idx) :
    (updateFirst targetId f es).eraseIdx idx = es.eraseIdx idx := by
  induction es generalizing idx with
  | nil => cases position
  | cons e es ih =>
    rw [List.findIdx?_cons] at position
    by_cases here : e.id = targetId
    · rw [if_pos (beq_iff_eq.mpr here)] at position
      cases position
      rw [updateFirst, if_pos here]
      rfl
    · rw [if_neg (fun eq => here (eq_of_beq eq))] at position
      obtain ⟨idx', found, rfl⟩ := Option.map_eq_some_iff.mp position
      rw [updateFirst, if_neg here, List.eraseIdx_cons_succ, List.eraseIdx_cons_succ, ih found]

theorem othersLack_update (keeps : ∀ e, (f e).id = e.id) :
    OthersLack env (m.update targetId f) targetId refreshToken ↔
      OthersLack env m targetId refreshToken := by
  have same : ∀ idx, m.entries.findIdx? (·.id == targetId) = some idx →
      (m.update targetId f).entries.eraseIdx idx = m.entries.eraseIdx idx :=
    fun idx position => eraseIdx_updateFirst m.entries position
  have position : (m.update targetId f).entries.findIdx? (·.id == targetId) =
      m.entries.findIdx? (·.id == targetId) := findIdx_updateFirst keeps m.entries
  rw [OthersLack, OthersLack, position]
  constructor
  · intro lack idx here
    rw [← same idx here]
    exact lack idx here
  · intro lack idx here
    rw [same idx here]
    exact lack idx here

theorem find_update_self (keeps : ∀ e, (f e).id = e.id) (found : m.find targetId = some e) :
    (m.update targetId f).find targetId = some (f e) := by
  rw [find_update keeps, if_pos rfl, found]
  rfl

theorem update_congr (found : m.find targetId = some e) (same : f e = g e) :
    m.update targetId f = m.update targetId g := by
  have lists : ∀ es : List CredentialEntry, es.find? (·.id == targetId) = some e →
      updateFirst targetId f es = updateFirst targetId g es := by
    intro es
    induction es with
    | nil => exact nofun
    | cons a es ih =>
      intro here
      rw [List.find?_cons] at here
      by_cases is : a.id = targetId
      · rw [beq_iff_eq.mpr is] at here
        rw [updateFirst, if_pos is, updateFirst, if_pos is, Option.some.inj here, same]
      · rw [beq_eq_false_iff_ne.mpr is] at here
        rw [updateFirst, if_neg is, updateFirst, if_neg is, ih here]
  rw [update, update, lists m.entries found]

/-- The write behind an operation, as its answer. -/
def answer (file : CredentialsFile) (writes : Nat → Except String Unit) (i : Nat) :
    Except String Unit := (persistCredentials (fileAt file writes i)).map fun _ => ()

theorem answer_cases (file : CredentialsFile) (writes : Nat → Except String Unit) (i : Nat) :
    Persists file writes i ∧ answer file writes i = .ok () ∨
      ¬ Persists file writes i ∧ ∃ message, answer file writes i = .error message := by
  rw [Persists, answer]
  cases persistCredentials (fileAt file writes i) with
  | ok _ => exact .inl ⟨rfl, rfl⟩
  | error message => exact .inr ⟨nofun, message, rfl⟩

theorem setDisabled_eq (found : m.find targetId = some e) (i : Nat) :
    Administration.setDisabled (fileAt file writes i) m targetId true =
      (m.update targetId off, answer file writes i) := by
  rw [Administration.setDisabled, MultiTokenManager.setDisabled, editEntry, found]
  rfl

theorem updateRefreshToken_cases (env : Env) (file : CredentialsFile)
    (writes : Nat → Except String Unit) (refreshToken : String)
    (found : m.find targetId = some e) (is_off : e.disabled = true) (i : Nat) :
    Accepts env m targetId refreshToken e ∧
        Administration.updateRefreshToken env (fileAt file writes i) m targetId refreshToken none
          none = (m.update targetId (retoken refreshToken), answer file writes i) ∨
      ¬ Accepts env m targetId refreshToken e ∧ ∃ message,
        Administration.updateRefreshToken env (fileAt file writes i) m targetId refreshToken none
          none = (m, .error message) := by
  have accepts : (∃ m', m.updateRefreshToken env targetId refreshToken none none = .ok m') ↔ _ :=
    accepts_iff none none
  rw [Administration.updateRefreshToken]
  cases result : m.updateRefreshToken env targetId refreshToken none none with
  | ok m' =>
    obtain ⟨e', found', -, valid, lack⟩ := accepts.mp ⟨m', result⟩
    rw [found, Option.some.injEq] at found'
    obtain ⟨-, -, -, -, -, -, eq⟩ := updateRefreshToken_ok result
    rw [eq]
    exact .inl ⟨⟨found' ▸ valid, lack⟩, rfl⟩
  | error message =>
    refine .inr ⟨fun ⟨valid, lack⟩ => ?_, message, rfl⟩
    obtain ⟨m', ok⟩ := accepts.mpr ⟨e, found, is_off, valid, lack⟩
    rw [result] at ok
    cases ok

theorem updateAuthMetadata_cases (file : CredentialsFile) (writes : Nat → Except String Unit)
    (metadata : KiroCredentials) (found : m.find targetId = some e) (i : Nat) :
    withMetadata e.credentials metadata = e.credentials ∧
        Administration.updateAuthMetadata (fileAt file writes i) m targetId metadata =
          (m.update targetId (describe metadata), .ok ()) ∨
      withMetadata e.credentials metadata ≠ e.credentials ∧
        Administration.updateAuthMetadata (fileAt file writes i) m targetId metadata =
          (m.update targetId (describe metadata), answer file writes i) := by
  rw [Administration.updateAuthMetadata, found]
  by_cases same : withMetadata e.credentials metadata = e.credentials
  · have unchanged : m.update targetId (describe metadata) = m := by
      have entry : describe metadata e = id e := by
        rw [describe, same]
        rfl
      rw [update_congr found entry, update]
      have lists : ∀ es : List CredentialEntry, updateFirst targetId id es = es := by
        intro es
        induction es with
        | nil => rfl
        | cons a es ih => rw [updateFirst, ih, id_eq, ite_self]
      rw [lists]
    refine .inl ⟨same, ?_⟩
    simp only [if_pos same, unchanged]
  · refine .inr ⟨same, ?_⟩
    simp only [if_neg same]
    rw [MultiTokenManager.updateAuthMetadata, editEntry, found]
    rfl

theorem resetAndEnable_eq (found : m.find targetId = some e)
    (valid : e.disabledReason ≠ some .invalidConfig) (i : Nat) :
    Administration.resetAndEnable (fileAt file writes i) m targetId =
      (m.update targetId enable, answer file writes i) := by
  rw [Administration.resetAndEnable, MultiTokenManager.resetAndEnable, found]
  simp only [if_neg valid]
  rfl

theorem andThen_error {outcome : Outcome Unit} {message : String}
    {next : MultiTokenManager → Outcome Unit} (failed : outcome.2 = .error message) :
    andThen outcome next = (outcome.1, .error message) := by
  rw [andThen, failed]

theorem andThen_ok {outcome : Outcome Unit} {next : MultiTokenManager → Outcome Unit}
    (went : outcome.2 = .ok ()) : andThen outcome next = next outcome.1 := by
  rw [andThen, went]

/-- The entry is switched off as an administrator does it. -/
def SwitchedOff (e : CredentialEntry) : Prop := e.disabled = true ∧ e.disabledReason = some .manual

variable (file writes refreshToken metadata) in
/-- Everything before the last write goes through. -/
def ReachesLast (env : Env) (m : MultiTokenManager) (targetId : Nat) (e : CredentialEntry) : Prop :=
  Persists file writes 0 ∧ Accepts env m targetId refreshToken e ∧ Persists file writes 1 ∧
    (Describes refreshToken metadata e → Persists file writes 2)

variable (file writes refreshToken metadata) in
def GoesThrough (env : Env) (m : MultiTokenManager) (targetId : Nat) (e : CredentialEntry) : Prop :=
  ReachesLast file writes refreshToken metadata env m targetId e ∧ Persists file writes 3

/-- How an update ends, by the first of its operations that fails. -/
inductive Ends (env : Env) (file : CredentialsFile) (writes : Nat → Except String Unit)
    (m : MultiTokenManager) (targetId : Nat) (refreshToken : String) (metadata : KiroCredentials)
    (e : CredentialEntry) : Outcome Unit → Prop where
  | done (through : GoesThrough file writes refreshToken metadata env m targetId e) :
      Ends env file writes m targetId refreshToken metadata e
        (m.update targetId (relogged refreshToken metadata), .ok ())
  | last (message : String)
      (reaches : ReachesLast file writes refreshToken metadata env m targetId e)
      (stuck : ¬ Persists file writes 3) :
      Ends env file writes m targetId refreshToken metadata e
        (m.update targetId (relogged refreshToken metadata), .error message)
  | before (f : CredentialEntry → CredentialEntry) (message : String)
      (keeps : ∀ e, (f e).id = e.id) (off : SwitchedOff (f e))
      (stuck : ¬ ReachesLast file writes refreshToken metadata env m targetId e) :
      Ends env file writes m targetId refreshToken metadata e
        (m.update targetId f, .error message)

theorem ends_of_found (env : Env) (file : CredentialsFile) (writes : Nat → Except String Unit)
    (refreshToken : String) (metadata : KiroCredentials) (found : m.find targetId = some e) :
    Ends env file writes m targetId refreshToken metadata e
      (doReloginUpdate env file writes m targetId refreshToken metadata) := by
  have keeps_off : ∀ e, (off e).id = e.id := fun _ => rfl
  have found₁ : (m.update targetId off).find targetId = some (off e) :=
    find_update_self keeps_off found
  rw [doReloginUpdate, setDisabled_eq found]
  rcases answer_cases file writes 0 with ⟨write₀, went₀⟩ | ⟨stuck, message, failed⟩
  case inr =>
    rw [andThen_error failed]
    exact .before off message keeps_off ⟨rfl, rfl⟩ fun reaches => stuck reaches.1
  rw [andThen_ok went₀]
  -- the new token
  have keeps_retoken : ∀ e, (retoken refreshToken e).id = e.id := fun _ => rfl
  have keeps₂ : ∀ e, ((retoken refreshToken ∘ off) e).id = e.id := fun _ => rfl
  have accepts : Accepts env (m.update targetId off) targetId refreshToken (off e) ↔
      Accepts env m targetId refreshToken e := and_congr_right fun _ => othersLack_update keeps_off
  rcases updateRefreshToken_cases env file writes refreshToken found₁ rfl 1 with ⟨accepted, eq⟩ | ⟨refused, message, eq⟩
  case inr =>
    rw [eq, andThen_error rfl]
    exact .before off message keeps_off ⟨rfl, rfl⟩ fun reaches => refused (accepts.mpr reaches.2.1)
  rw [eq, update_update keeps_off]
  rcases answer_cases file writes 1 with ⟨write₁, went₁⟩ | ⟨stuck, message, failed⟩
  case inr =>
    rw [andThen_error failed]
    exact .before _ message keeps₂ ⟨rfl, rfl⟩ fun reaches => stuck reaches.2.2.1
  rw [andThen_ok went₁]
  -- the metadata
  have found₂ : (m.update targetId (retoken refreshToken ∘ off)).find targetId =
      some (retoken refreshToken (off e)) := find_update_self keeps₂ found
  have keeps₃ : ∀ e, ((describe metadata ∘ retoken refreshToken ∘ off) e).id = e.id := fun _ => rfl
  have found₃ : (m.update targetId (describe metadata ∘ retoken refreshToken ∘ off)).find targetId =
      some (describe metadata (retoken refreshToken (off e))) := find_update_self keeps₃ found
  have described : ∃ ok, Administration.updateAuthMetadata (fileAt file writes 2)
        (m.update targetId (retoken refreshToken ∘ off)) targetId metadata =
      (m.update targetId (describe metadata ∘ retoken refreshToken ∘ off), ok) ∧
      (ok = .ok () ∧ (Describes refreshToken metadata e → Persists file writes 2) ∨
        ¬ (Describes refreshToken metadata e → Persists file writes 2) ∧
          ∃ message, ok = .error message) := by
    rcases updateAuthMetadata_cases file writes metadata found₂ 2 with ⟨same, eq⟩ | ⟨news, eq⟩
    · exact ⟨_, by rw [eq, update_update keeps₂], .inl ⟨rfl, fun news => absurd same news⟩⟩
    · refine ⟨_, by rw [eq, update_update keeps₂], ?_⟩
      rcases answer_cases file writes 2 with ⟨write, went⟩ | ⟨stuck, failed⟩
      · exact .inl ⟨went, fun _ => write⟩
      · exact .inr ⟨fun through => stuck (through news), failed⟩
  obtain ⟨ok, eq, ⟨rfl, write₂⟩ | ⟨stuck, message, rfl⟩⟩ := described
  case inr =>
    rw [eq, andThen_error rfl]
    exact .before _ message keeps₃ ⟨rfl, rfl⟩ fun reaches => stuck reaches.2.2.2
  rw [eq, andThen_ok rfl]
  -- switching on
  have valid : (describe metadata (retoken refreshToken (off e))).disabledReason ≠
      some .invalidConfig := nofun
  rw [resetAndEnable_eq found₃ valid, update_update keeps₃]
  have reaches : ReachesLast file writes refreshToken metadata env m targetId e :=
    ⟨write₀, accepts.mp accepted, write₁, write₂⟩
  rcases answer_cases file writes 3 with ⟨write₃, went₃⟩ | ⟨stuck, message, failed⟩
  · rw [went₃]
    exact .done ⟨reaches, write₃⟩
  · rw [failed]
    exact .last message reaches stuck

/-- An update succeeds exactly if the token is accepted and every write is made, and then the entry
has the token and is on again. One that fails leaves the entry switched off, whatever it was
before, unless everything but the last write went through: then the entry is on. The other entries
stay as they are. -/
theorem relogin_outcome (found : m.find targetId = some e) :
    let outcome := doReloginUpdate env file writes m targetId refreshToken metadata
    (outcome.2 = .ok () ↔ GoesThrough file writes refreshToken metadata env m targetId e) ∧
    (outcome.2 = .ok () →
      outcome.1.find targetId = some (relogged refreshToken metadata e)) ∧
    (∀ message, outcome.2 = .error message →
      ReachesLast file writes refreshToken metadata env m targetId e ∧ ¬ Persists file writes 3 ∧
          outcome.1.find targetId = some (relogged refreshToken metadata e) ∨
        ¬ ReachesLast file writes refreshToken metadata env m targetId e ∧
          ∃ e', outcome.1.find targetId = some e' ∧ SwitchedOff e') ∧
    ∀ other ≠ targetId, outcome.1.find other = m.find other := by
  have ends := ends_of_found env file writes refreshToken metadata found
  have keeps : ∀ e, (relogged refreshToken metadata e).id = e.id := fun _ => rfl
  generalize doReloginUpdate env file writes m targetId refreshToken metadata = outcome at ends ⊢
  show (outcome.2 = .ok () ↔ _) ∧ (outcome.2 = .ok () → _) ∧ (∀ message, _ → _) ∧ _
  cases ends with
  | done through =>
    refine ⟨⟨fun _ => through, fun _ => rfl⟩, fun _ => find_update_self keeps found, nofun,
      fun other ne => ?_⟩
    exact (find_update keeps).trans (if_neg ne)
  | last message reaches stuck =>
    refine ⟨⟨nofun, fun through => absurd through.2 stuck⟩, nofun,
      fun _ _ => .inl ⟨reaches, stuck, find_update_self keeps found⟩, fun other ne => ?_⟩
    exact (find_update keeps).trans (if_neg ne)
  | before f message keeps' off stuck =>
    refine ⟨⟨nofun, fun through => absurd through.1 stuck⟩, nofun, fun _ _ => .inr ⟨stuck, ?_⟩,
      fun other ne => ?_⟩
    · exact ⟨f e, find_update_self keeps' found, off⟩
    · exact (find_update keeps').trans (if_neg ne)

private def working : MultiTokenManager where
  config := ⟨"us-east-1", none, none⟩
  entries := [{ id := 7, credentials := { refreshToken := some "old" } }]
  currentId := 7
  loadBalancingMode := "priority"
  enterpriseProfileFetchAttempted := []

theorem relogin_outcome_short : (working.find 7).map (·.disabled) = some false ∧
    ∃ e', (doReloginUpdate plainEnv ⟨true, true, .ok ()⟩ (fun _ => .ok ()) working 7 "short"
      {}).1.find 7 = some e' ∧ SwitchedOff e' := by
  have found : working.find 7 = some { id := 7, credentials := { refreshToken := some "old" } } :=
    rfl
  obtain ⟨through, -, failed, -⟩ := @relogin_outcome plainEnv ⟨true, true, .ok ()⟩
    (fun _ => .ok ()) working 7 "short" {} _ found
  refine ⟨rfl, ?_⟩
  cases result : (doReloginUpdate plainEnv ⟨true, true, .ok ()⟩ (fun _ => .ok ()) working 7 "short"
      {}).2 with
  | ok _ =>
    obtain ⟨⟨-, ⟨valid, -⟩, -⟩, -⟩ := through.mp result
    exact absurd valid (by decide +kernel)
  | error message =>
    rcases failed message result with ⟨-, stuck, -⟩ | ⟨-, left⟩
    · exact absurd rfl stuck
    · exact left

end KiroRs.Login.Relogin
