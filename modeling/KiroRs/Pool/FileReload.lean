/- Path: KiroRs/Pool/FileReload
   source: src/kiro/token_manager.rs, src/kiro/model/credentials.rs
   digest: The credential that a reload takes from the file, and when it is the one that the rules
   of the reload name. -/

import KiroRs.Pool.Restart

set_option autoImplicit false
set_option relaxedAutoImplicit false

namespace KiroRs.Pool.FileReload

open KiroRs.Pool.Credentials
open KiroRs.Pool.Manager
open KiroRs.Pool.Manager.MultiTokenManager
open KiroRs.Pool.Tasks (reloadMatch)
open KiroRs.Pool.Restart (canonicalizeAuthMethod)
open KiroRs.Pool.Changes (forall₂_updateFirst)

/-- The two formats of the credentials file. -/
inductive CredentialsConfig where
  | single (cred : KiroCredentials)
  | multiple (creds : List KiroCredentials)

def CredentialsConfig.intoSortedCredentials : CredentialsConfig → List KiroCredentials
  | .single cred => [canonicalizeAuthMethod cred]
  | .multiple creds => Restart.intoSortedCredentials creds

def sameId (e : CredentialEntry) (fc : KiroCredentials) : Bool :=
  fc.id.isSome && fc.id == e.credentials.id

def sameEmail (e : CredentialEntry) (fc : KiroCredentials) : Bool :=
  fc.email.isSome && fc.email == e.credentials.email

def matched (e : CredentialEntry) (entriesLen : Nat) (fileCreds : List KiroCredentials) :
    Option KiroCredentials :=
  (fileCreds.find? fun fc => sameId e fc || sameEmail e fc).or
    (if fileCreds.length = 1 ∧ entriesLen = 1 then fileCreds.head? else none)

def install (fc : KiroCredentials) (e : CredentialEntry) : CredentialEntry :=
  { e with
    credentials := { e.credentials with
      refreshToken := fc.refreshToken
      accessToken := fc.accessToken
      expiresAt := fc.expiresAt }
    disabled := false
    disabledReason := none
    refreshFailureCount := 0
    failureCount := 0 }

variable (m : MultiTokenManager) (id : Nat) (file : Option CredentialsConfig)

/-- `try_reload_credential_from_file` up to the entry whose tokens it takes. `file` is what the file
parses to, where it can be read. -/
def fileCredential : Option KiroCredentials :=
  match file with
  | none => none
  | some config =>
    let fileCreds := config.intoSortedCredentials
    if fileCreds.isEmpty then none
    else
      match m.find id with
      | none => none
      | some e =>
        match matched e m.entries.length fileCreds with
        | none => none
        | some fc =>
          if fc.refreshToken.isNone || fc.refreshToken == e.credentials.refreshToken then none
          else some fc

def tryReloadCredentialFromFile : Option MultiTokenManager :=
  (fileCredential m id file).map fun fc => m.update id (install fc)

/-- What the rules of the reload say of an entry and a file: the same id first, the same address
where no id fits, and the only entry where nothing fits. -/
inductive Prescribed (e : CredentialEntry) (entriesLen : Nat) (creds : List KiroCredentials) :
    KiroCredentials → Prop where
  | byId (c : KiroCredentials) (mem : c ∈ creds) (same : sameId e c = true) :
    Prescribed e entriesLen creds c
  | byEmail (c : KiroCredentials) (mem : c ∈ creds) (same : sameEmail e c = true)
      (others : ∀ other ∈ creds, sameId e other = false) : Prescribed e entriesLen creds c
  | only (c : KiroCredentials) (one : creds = [c]) (alone : entriesLen = 1)
      (noId : sameId e c = false) (noEmail : sameEmail e c = false) :
    Prescribed e entriesLen creds c

/-- Nothing but the tokens, the failures and the disabled state of one entry changes. -/
def Reloaded (id : Nat) (e e' : CredentialEntry) : Prop :=
  e' = e ∨ e.id = id ∧ e' =
    { e with
      credentials := { e.credentials with
        refreshToken := e'.credentials.refreshToken
        accessToken := e'.credentials.accessToken
        expiresAt := e'.credentials.expiresAt }
      disabled := e'.disabled
      disabledReason := e'.disabledReason
      refreshFailureCount := e'.refreshFailureCount
      failureCount := e'.failureCount }

def sortedCredentials : List KiroCredentials :=
  (file.map (·.intoSortedCredentials)).getD []

structure ReloadsRight : Prop where
  prescribed : ∀ e fc, m.find id = some e → fileCredential m id file = some fc →
    Prescribed e m.entries.length (sortedCredentials file) fc
  scope : ∀ m', tryReloadCredentialFromFile m id file = some m' →
    m' = { m with entries := m'.entries } ∧ List.Forall₂ (Reloaded id) m.entries m'.entries
  own : ∀ m' e', tryReloadCredentialFromFile m id file = some m' → m'.find id = some e' →
    ∀ other ∈ m.entries, other.id ≠ id →
      other.credentials.refreshToken ≠ e'.credentials.refreshToken

/-- The first entry of the file, by priority, that shares the id or the address. -/
def FirstShares (e : CredentialEntry) (creds : List KiroCredentials) (c : KiroCredentials) :
    Prop :=
  ∃ before after, creds = before ++ c :: after ∧ (sameId e c || sameEmail e c) = true ∧
    ∀ b ∈ before, (sameId e b || sameEmail e b) = false

def News (e : CredentialEntry) (c : KiroCredentials) : Prop :=
  c.refreshToken.isSome = true ∧ c.refreshToken ≠ e.credentials.refreshToken

/-- Where the first entry of the file that shares the id or the address brings a new token, it
shares the id or no entry does, and no other account of the pool holds that token. -/
def LeadsRight : Prop :=
  ∀ e c, m.find id = some e → FirstShares e (sortedCredentials file) c → News e c →
    (sameId e c = true ∨ ∀ other ∈ sortedCredentials file, sameId e other = false) ∧
    ∀ other ∈ m.entries, other.id ≠ id → other.credentials.refreshToken ≠ c.refreshToken

variable {m id file}

theorem fileCredential_iff {e : CredentialEntry} {fc : KiroCredentials}
    (found : m.find id = some e) : fileCredential m id file = some fc ↔
      matched e m.entries.length (sortedCredentials file) = some fc ∧ News e fc := by
  unfold fileCredential sortedCredentials
  cases file with
  | none =>
    constructor
    · intro never
      cases never
    · rintro ⟨never, -⟩
      cases never
  | some config =>
    rw [Option.map_some, Option.getD_some]
    dsimp only
    rw [found]
    generalize config.intoSortedCredentials = creds
    cases creds with
    | nil =>
      constructor
      · intro never
        cases never
      · rintro ⟨never, -⟩
        cases never
    | cons c rest =>
      dsimp only [List.isEmpty_cons]
      rw [if_neg Bool.false_ne_true]
      cases matched e m.entries.length (c :: rest) with
      | none =>
        constructor
        · intro never
          cases never
        · rintro ⟨never, -⟩
          cases never
      | some taken =>
        dsimp only
        have news : (taken.refreshToken.isNone ||
            taken.refreshToken == e.credentials.refreshToken) = true ↔ ¬ News e taken := by
          unfold News
          rw [Bool.or_eq_true, beq_iff_eq, ← Option.not_isSome, Bool.not_eq_true']
          constructor
          · rintro (none | same) ⟨some, other⟩
            · rw [none] at some
              cases some
            · exact other same
          · intro old
            by_contra neither
            rw [not_or, Bool.not_eq_false] at neither
            exact old neither
        split_ifs with old
        · constructor
          · intro never
            cases never
          · rintro ⟨⟨⟩, new⟩
            exact absurd new (news.mp old)
        · rw [news, not_not] at old
          constructor
          · rintro ⟨⟩
            exact ⟨rfl, old⟩
          · rintro ⟨same, -⟩
            exact same

theorem fileCredential_eq_reloadMatch :
    fileCredential m id file = reloadMatch m id (file.map (·.intoSortedCredentials)) := by
  cases found : m.find id with
  | none =>
    have nothing : reloadMatch m id (file.map (·.intoSortedCredentials)) = none := by
      unfold reloadMatch
      rw [found]
      cases file <;> rfl
    rw [nothing]
    unfold fileCredential
    rw [found]
    cases file with
    | none => rfl
    | some config =>
      dsimp only
      split_ifs <;> rfl
  | some e =>
    refine Option.ext fun fc => ?_
    rw [fileCredential_iff found]
    unfold reloadMatch
    rw [found]
    cases file with
    | none =>
      constructor
      · rintro ⟨never, -⟩
        cases never
      · intro never
        cases never
    | some config =>
      rw [Option.map_some]
      dsimp only
      rw [Option.filter_eq_some_iff, Bool.and_eq_true, bne_iff_ne]
      rfl

theorem reloading_installs (env : Env) (t : Nat) (input : Tasks.Input) (lock : Option Nat)
    (attempt : Tasks.Attempt) (fc : KiroCredentials) :
    Tasks.stepTask env t input m lock (.reloading attempt id fc) =
      some ⟨m.update id (install fc), lock, .loopHead attempt⟩ := rfl

theorem find?_eq_none_iff_all {α : Type} {p : α → Bool} {l : List α} :
    l.find? p = none ↔ ∀ a ∈ l, p a = false := by
  rw [List.find?_eq_none]
  exact forall₂_congr fun a _ => Bool.not_eq_true (p a) ▸ Iff.rfl

theorem matched_iff {e : CredentialEntry} {n : Nat} {creds : List KiroCredentials}
    {fc : KiroCredentials} : matched e n creds = some fc ↔
      FirstShares e creds fc ∨
        creds = [fc] ∧ n = 1 ∧ (sameId e fc || sameEmail e fc) = false := by
  have first : FirstShares e creds fc ↔
      creds.find? (fun fc => sameId e fc || sameEmail e fc) = some fc := by
    rw [List.find?_eq_some_iff_append]
    unfold FirstShares
    constructor
    · rintro ⟨before, after, split, shares, none⟩
      exact ⟨shares, before, after, split, fun b mem => by rw [none b mem]; rfl⟩
    · rintro ⟨shares, before, after, split, none⟩
      exact ⟨before, after, split, shares, fun b mem => by simpa using none b mem⟩
  rw [first]
  unfold matched
  cases shares : creds.find? fun fc => sameId e fc || sameEmail e fc with
  | some c =>
    rw [Option.some_or]
    constructor
    · exact .inl
    · rintro (here | ⟨one, -, neither⟩)
      · exact here
      · have fits := List.find?_some shares
        have mem := List.mem_of_find?_eq_some shares
        rw [one, List.mem_singleton] at mem
        rw [mem, neither] at fits
        cases fits
  | none =>
    have none_shares := find?_eq_none_iff_all.mp shares
    rw [Option.none_or]
    split_ifs with single
    · obtain ⟨c, one⟩ := List.length_eq_one_iff.mp single.1
      have neither := none_shares c (by rw [one]; exact List.mem_singleton_self c)
      rw [one, List.head?_cons]
      constructor
      · rintro ⟨⟩
        exact .inr ⟨rfl, single.2, neither⟩
      · rintro (never | ⟨same, -⟩)
        · cases never
        · rw [(List.cons.inj same).1]
    · constructor
      · intro never
        cases never
      · rintro (never | ⟨one, alone, -⟩)
        · cases never
        · exact absurd ⟨by rw [one]; rfl, alone⟩ single

theorem find_install (fc : KiroCredentials) :
    (m.update id (install fc)).find id = (m.find id).map (install fc) := by
  have keeps (e : CredentialEntry) : (install fc e).id = e.id := rfl
  rw [find_update keeps, if_pos rfl]

theorem scope_reload {m' : MultiTokenManager}
    (reloads : tryReloadCredentialFromFile m id file = some m') :
    m' = { m with entries := m'.entries } ∧ List.Forall₂ (Reloaded id) m.entries m'.entries := by
  obtain ⟨fc, -, rfl⟩ := Option.map_eq_some_iff.mp reloads
  refine ⟨rfl, forall₂_updateFirst (fun e => .inl rfl) m.entries fun e found => .inr ⟨?_, rfl⟩⟩
  exact id_of_find found

theorem token_reload {m' : MultiTokenManager} {e e' : CredentialEntry}
    (found : m.find id = some e) (reloads : tryReloadCredentialFromFile m id file = some m')
    (there : m'.find id = some e') :
    ∃ fc, fileCredential m id file = some fc ∧ e'.credentials.refreshToken = fc.refreshToken := by
  obtain ⟨fc, taken, rfl⟩ := Option.map_eq_some_iff.mp reloads
  rw [find_install, found] at there
  cases there
  exact ⟨fc, taken, rfl⟩

/-- A reload follows its rules exactly if the file leads with the right entry. -/
theorem reloads_right_iff (m : MultiTokenManager) (id : Nat) (file : Option CredentialsConfig) :
    ReloadsRight m id file ↔ LeadsRight m id file := by
  constructor
  · intro right e c found leads news
    have taken : fileCredential m id file = some c :=
      (fileCredential_iff found).mpr ⟨matched_iff.mpr (.inl leads), news⟩
    refine ⟨?_, fun other mem ne => ?_⟩
    · cases right.prescribed e c found taken with
      | byId mem same => exact .inl same
      | byEmail mem same others => exact .inr others
      | only one alone noId noEmail =>
        obtain ⟨-, -, -, shares, -⟩ := leads
        rw [noId, noEmail] at shares
        cases shares
    · have reloads : tryReloadCredentialFromFile m id file = some (m.update id (install c)) := by
        unfold tryReloadCredentialFromFile
        rw [taken, Option.map_some]
      have there : (m.update id (install c)).find id = some (install c e) := by
        rw [find_install, found]
        rfl
      exact right.own _ _ reloads there other mem ne
  · intro leads
    refine ⟨fun e fc found taken => ?_, fun m' => scope_reload, fun m' e' reloads there => ?_⟩
    · obtain ⟨match_, news⟩ := (fileCredential_iff found).mp taken
      rcases matched_iff.mp match_ with first | ⟨one, alone, neither⟩
      · obtain ⟨right, -⟩ := leads e fc found first news
        obtain ⟨before, after, split, shares, -⟩ := first
        have mem : fc ∈ sortedCredentials file := by
          rw [split]
          exact List.mem_append_right _ List.mem_cons_self
        rcases right with same | others
        · exact .byId fc mem same
        · rw [others fc mem, Bool.false_or] at shares
          exact .byEmail fc mem shares others
      · rw [Bool.or_eq_false_iff] at neither
        exact .only fc one alone neither.1 neither.2
    · cases found : m.find id with
      | none =>
        obtain ⟨fc, -, rfl⟩ := Option.map_eq_some_iff.mp reloads
        rw [find_install, found] at there
        cases there
      | some e =>
        obtain ⟨fc, taken, token⟩ := token_reload found reloads there
        obtain ⟨match_, news⟩ := (fileCredential_iff found).mp taken
        intro other mem ne
        rw [token]
        rcases matched_iff.mp match_ with first | ⟨-, alone, -⟩
        · exact (leads e fc found first news).2 other mem ne
        · obtain ⟨only, one⟩ := List.length_eq_one_iff.mp alone
          have there := List.mem_of_find?_eq_some found
          rw [one, List.mem_singleton] at mem there
          rw [mem, ← there] at ne
          exact absurd (id_of_find found) ne

def sharedAddress : MultiTokenManager where
  config := ⟨"us-east-1", none, none⟩
  entries :=
    [{ id := 1, credentials :=
        { id := some 1, email := some "team@example.com", refreshToken := some "old-1" } },
      { id := 2, credentials :=
        { id := some 2, email := some "team@example.com", refreshToken := some "token-2" } }]
  currentId := 1
  loadBalancingMode := "priority"
  enterpriseProfileFetchAttempted := []

/-- Their file, in which the first account has a new token and the second comes first. -/
def sharedAddressFile : CredentialsConfig :=
  .multiple
    [{ id := some 1, priority := 1, email := some "team@example.com",
       refreshToken := some "new-1" },
      { id := some 2, email := some "team@example.com", refreshToken := some "token-2" }]

/-- The first account gets the token of the second. -/
theorem reload_swaps_accounts :
    ¬ ∀ (m : MultiTokenManager) (id : Nat) (file : Option CredentialsConfig),
      ReloadsRight m id file := by
  intro claim
  have own := (claim sharedAddress 1 (some sharedAddressFile)).own
  have reloads : ((tryReloadCredentialFromFile sharedAddress 1 (some sharedAddressFile)).any
      fun m' => (m'.find 1).any fun e' =>
        e'.credentials.refreshToken == some "token-2") = true := by
    decide +kernel
  obtain ⟨m', reloads, there⟩ := (Option.any_eq_true _ _).mp reloads
  obtain ⟨e', found, token⟩ := (Option.any_eq_true _ _).mp there
  rw [beq_iff_eq] at token
  refine own m' e' reloads found
    { id := 2, credentials :=
      { id := some 2, email := some "team@example.com", refreshToken := some "token-2" } } ?_ ?_ ?_
  · exact List.mem_cons_of_mem _ List.mem_cons_self
  · decide
  · exact token.symm

end KiroRs.Pool.FileReload
