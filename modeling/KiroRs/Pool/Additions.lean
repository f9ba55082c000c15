/- Path: KiroRs/Pool/Additions
   source: src/kiro/token_manager.rs
   digest: Credentials that are added at once: when their ids stay distinct, and when none is added
   that the pool has. -/

import KiroRs.Pool.Invariants

set_option autoImplicit false
set_option relaxedAutoImplicit false

namespace KiroRs.Pool.Additions

open KiroRs.Lib.Traces
open KiroRs.Pool.Credentials
open KiroRs.Pool.Manager
open KiroRs.Pool.Tasks
open KiroRs.Pool.Selection (plainEnv)
open KiroRs.Pool.RefreshInterleaving (longToken)
open KiroRs.Pool.ManualDisable (ids)
open KiroRs.Pool.Changes
open KiroRs.Pool.Startup
open KiroRs.Pool.Invariants

/-- What `add_credential` tells credentials apart by. -/
inductive Identity where
  | apiKey (key : String)
  | refreshToken (token : String)
  deriving DecidableEq

def identityOf (new : KiroCredentials) : Option Identity :=
  if new.isApiKeyCredential then new.kiroApiKey.map .apiKey
  else new.refreshToken.map .refreshToken

/-- The credentials that a task was started to add. -/
def request : List (System × Action) → Nat → Option KiroCredentials
  | [], _ => none
  | (_, .start t' (.addCredential new)) :: earlier, t =>
      if t' = t then some new else request earlier t
  | _ :: earlier, t => request earlier t

def addedWith : List (System × Action) → Nat → Option Identity
  | [], _ => none
  | (s, .task t _) :: earlier, id =>
      match s.tasks t with
      | .addPushing i _ =>
          if i = id then (request earlier t).bind identityOf else addedWith earlier id
      | _ => addedWith earlier id
  | _ :: earlier, id => addedWith earlier id

def keyOf (e : CredentialEntry) : Option String := e.credentials.kiroApiKey

def keys (m : MultiTokenManager) : List String := m.entries.filterMap keyOf

/-- No two entries share an id or an API key, or were added with the same refresh token. -/
structure Unique (trace : List (System × Action)) (s : System) : Prop where
  ids : (ids s.manager).Nodup
  keys : (keys s.manager).Nodup
  tokens : ∀ e ∈ s.manager.entries, ∀ e' ∈ s.manager.entries, e.id ≠ e'.id → ∀ token,
    addedWith trace e.id = some (.refreshToken token) →
    addedWith trace e'.id ≠ some (.refreshToken token)

def pending : Task → Bool
  | .addRefreshing _ | .addChoosing _ _ | .addPushing _ _ => true
  | _ => false

/-- A step keeps additions apart: the id that is chosen fits and is not chosen by another; no other
addition of the same key or token is past its checks when one passes them; and an entry that was
added with the token still has it then. -/
structure Apart (env : Env) (earlier : List (System × Action)) (s : System) (a : Action) :
    Prop where
  fits : ∀ t input new validated, a = .task t input → s.tasks t = .addChoosing new validated →
    maxId s.manager.entries + 1 < 2 ^ 64
  ids : ∀ t input new validated, a = .task t input → s.tasks t = .addChoosing new validated →
    ∀ t' c, s.tasks t' ≠ .addPushing (nextId s.manager.entries) c
  checks : ∀ t input new, a = .task t input → s.tasks t = .adding new →
    (addCheck env s.manager new).isOk = true → ∀ t', pending (s.tasks t') = true →
      (request earlier t').bind identityOf ≠ identityOf new
  still : ∀ t input new, a = .task t input → s.tasks t = .adding new →
    ∀ e ∈ s.manager.entries, ∀ token, identityOf new = some (.refreshToken token) →
      addedWith earlier e.id = some (.refreshToken token) →
      e.credentials.refreshToken = some token

/-- Every step of the trace keeps additions apart. -/
def AllApart (env : Env) : List (System × Action) → Prop
  | [] => True
  | (s, a) :: earlier => AllApart env earlier ∧ Apart env earlier s a

def AddsFor (new : KiroCredentials) : Task → Prop
  | .adding n | .addRefreshing n | .addChoosing n _ => n = new
  | .addPushing _ c => c.kiroApiKey = new.kiroApiKey
  | _ => False

def adds : Task → Bool
  | .adding _ => true
  | task => pending task

variable {env : Env} {s s' : System} {a : Action} {trace : List (System × Action)}

@[simp] theorem adds_tokenFailed (p : Purpose) (id : Nat) (e : RefreshError) :
    adds (tokenFailed p id e) = false := by
  cases p with
  | acquire attempt => cases e <;> rfl
  | usage | models | preference => rfl

@[simp] theorem adds_withAccessToken (p : Purpose) (id : Nat) (c : KiroCredentials) :
    adds (withAccessToken p id c) = false := by
  unfold withAccessToken
  cases c.accessToken with
  | none => exact adds_tokenFailed p id _
  | some token => cases p <;> rfl

@[simp] theorem adds_tokenTask (utcNow : Int) (p : Purpose) (id : Nat) (c : KiroCredentials) :
    adds (tokenTask env utcNow p id c) = false := by
  unfold tokenTask
  split_ifs
  · cases c.kiroApiKey with
    | none => exact adds_tokenFailed p id _
    | some key => cases p <;> rfl
  · rfl
  · exact adds_withAccessToken p id c

/-- Where a step of an addition comes from: the check, which it passes, the answer of the token
endpoint or the choice of the id. -/
inductive AddStep (env : Env) (m : MultiTokenManager) : Task → Task → Prop where
  | checked (new : KiroCredentials) (next : Task) (passes : (addCheck env m new).isOk = true)
      (waits : pending next = true) (same : AddsFor new next) (unpushed : pushOf next = none) :
      AddStep env m (.adding new) next
  | validated (new validated : KiroCredentials) :
      AddStep env m (.addRefreshing new) (.addChoosing new validated)
  | chosen (new validated : KiroCredentials) :
      AddStep env m (.addChoosing new validated)
        (.addPushing (nextId m.entries) (addFinish m.config (nextId m.entries) new validated))

theorem addStep_of_step {t : Nat} {input : Input} {m : MultiTokenManager} {lock : Option Nat}
    {task : Task} {next : Next} (step : stepTask env t input m lock task = some next)
    (adding : adds next.task = true) : AddStep env m task next.task ∧ next.manager = m := by
  cases task with
  | adding new =>
    simp only [stepTask] at step
    cases check : addCheck env m new with
    | error message =>
      rw [check] at step
      cases step
      cases adding
    | ok _ =>
      rw [check] at step
      dsimp only at step
      split_ifs at step
      · cases step
        exact ⟨.checked new _ (by rw [check]; rfl) rfl rfl rfl, rfl⟩
      · cases step
        exact ⟨.checked new _ (by rw [check]; rfl) rfl rfl rfl, rfl⟩
  | addRefreshing new =>
    simp only [stepTask] at step
    split at step
    · cases step
      cases adding
    · cases step
      exact ⟨.validated new _, rfl⟩
  | addChoosing new validated =>
    cases step
    exact ⟨.chosen new validated, rfl⟩
  | addPushing id c =>
    cases step
    cases adding
  | token p id c =>
    cases step
    simp at adding
  | rereading p id | refreshing p id c =>
    simp only [stepTask] at step
    repeat' split at step
    all_goals cases step
    all_goals first
      | cases adding
      | simp at adding
  | reportingInvalid a id | reportingFailure a id =>
    cases step
    dsimp only at adding
    split_ifs at adding <;> cases adding
  | _ =>
    simp only [stepTask] at step
    repeat' split at step
    all_goals first
      | cases step
        cases adding
      | cases step

theorem adds_call {m : MultiTokenManager} {call : Call} (adding : adds (call.task m) = true) :
    ∃ new, call = .addCredential new ∧ call.task m = .adding new := by
  cases call with
  | addCredential new => exact ⟨new, rfl, rfl⟩
  | setUserPreferenceFor id overageStatus =>
    simp only [Call.task] at adding
    split_ifs at adding <;> cases adding
  | _ => cases adding

theorem key_addFinish (config : Config) (id : Nat) (new validated : KiroCredentials) :
    (addFinish config id new validated).kiroApiKey = new.kiroApiKey := rfl

theorem isApiKeyCredential_of_key {c : KiroCredentials} {key : String}
    (holds : c.kiroApiKey = some key) : c.isApiKeyCredential = true := by
  unfold KiroCredentials.isApiKeyCredential
  rw [holds]
  rfl

theorem identityOf_key {new : KiroCredentials} {key : String} (holds : new.kiroApiKey = some key) :
    identityOf new = some (.apiKey key) := by
  unfold identityOf
  rw [if_pos (isApiKeyCredential_of_key holds), holds]
  rfl

theorem unheld_of_addCheck {m : MultiTokenManager} {new : KiroCredentials} {key : String}
    (passes : (addCheck env m new).isOk = true) (identity : identityOf new = some (.apiKey key)) :
    ∀ e ∈ m.entries, keyOf e ≠ some key := by
  intro e mem holds
  unfold identityOf at identity
  split_ifs at identity with with_key
  · obtain ⟨k, known, eq⟩ := Option.map_eq_some_iff.mp identity
    cases eq
    have duplicate : (m.entries.any fun e =>
        e.credentials.kiroApiKey.any (env.sha256Hex · == env.sha256Hex key)) = true := by
      refine List.any_eq_true.mpr ⟨e, mem, ?_⟩
      have holds : e.credentials.kiroApiKey = some key := holds
      rw [holds]
      exact beq_self_eq_true _
    unfold addCheck at passes
    rw [if_pos with_key, known] at passes
    dsimp only at passes
    rw [if_pos duplicate] at passes
    split_ifs at passes <;> cases passes
  · obtain ⟨_, -, eq⟩ := Option.map_eq_some_iff.mp identity
    cases eq

theorem other_token_of_addCheck {m : MultiTokenManager} {new : KiroCredentials} {token : String}
    (passes : (addCheck env m new).isOk = true)
    (identity : identityOf new = some (.refreshToken token)) :
    ∀ e ∈ m.entries, e.credentials.refreshToken ≠ some token := by
  intro e mem holds
  unfold identityOf at identity
  split_ifs at identity with with_key
  · obtain ⟨_, -, eq⟩ := Option.map_eq_some_iff.mp identity
    cases eq
  · obtain ⟨r, known, eq⟩ := Option.map_eq_some_iff.mp identity
    cases eq
    have duplicate : (m.entries.any fun e => e.credentials.refreshToken.any fun token =>
        new.refreshToken.any (env.sha256Hex token == env.sha256Hex ·)) = true := by
      refine List.any_eq_true.mpr ⟨e, mem, ?_⟩
      rw [holds, known]
      exact beq_self_eq_true _
    unfold addCheck at passes
    rw [if_neg with_key, if_pos duplicate] at passes
    split at passes <;> cases passes

theorem key_change {e e' : CredentialEntry} (change : Change env s a e e') :
    keyOf e' = keyOf e ∨ keyOf e' = none := by
  have refreshed : ∀ {snapshot new : KiroCredentials} {answer},
      refreshToken snapshot answer = .ok new → new.kiroApiKey = none := by
    intro snapshot new answer ok
    cases held : snapshot.kiroApiKey with
    | none =>
      obtain ⟨data, -, rfl⟩ := refreshToken_ok ok
      exact held
    | some key =>
      unfold refreshToken at ok
      rw [if_pos (isApiKeyCredential_of_key held)] at ok
      cases ok
  cases change with
  | edited c cause identity => exact .inl identity.kiroApiKey
  | written t input purpose snapshot new cause stands answer => exact .inr (refreshed answer)
  | forced t input snapshot new cause stands answer => exact .inr (refreshed answer)
  | _ => exact .inl rfl

theorem keys_of_changes {es es' : List CredentialEntry}
    (changes : List.Forall₂ (Change env s a) es es') :
    (es'.filterMap keyOf).Sublist (es.filterMap keyOf) := by
  induction changes with
  | nil => exact List.Sublist.refl _
  | @cons e e' es es' change _ ih =>
    rcases key_change change with same | gone
    · cases holds : keyOf e with
      | none =>
        rw [List.filterMap_cons_none (same.trans holds), List.filterMap_cons_none holds]
        exact ih
      | some key =>
        rw [List.filterMap_cons_some (same.trans holds), List.filterMap_cons_some holds]
        exact ih.cons_cons key
    · rw [List.filterMap_cons_none gone]
      cases holds : keyOf e with
      | none =>
        rw [List.filterMap_cons_none holds]
        exact ih
      | some key =>
        rw [List.filterMap_cons_some holds]
        exact ih.cons key

theorem entry_cases (step : s.step env a = some s') {e' : CredentialEntry}
    (mem : e' ∈ s'.manager.entries) :
    (∃ e ∈ s.manager.entries, e'.id = e.id ∧ (keyOf e' = keyOf e ∨ keyOf e' = none)) ∨
    ∃ t input id c, a = .task t input ∧ s.tasks t = .addPushing id c ∧
      e' = { id := id, credentials := c } := by
  rcases entries_step step with changes | ⟨id, e, -, -, -, left⟩ |
    ⟨t, input, id, c, rfl, stands, new⟩
  · obtain ⟨e, before, change⟩ := exists_of_forall₂ changes mem
    exact .inl ⟨e, before, change.id_eq, key_change change⟩
  · rw [left] at mem
    exact .inl ⟨e', List.mem_of_mem_filter mem, rfl, .inl rfl⟩
  · rw [new] at mem
    rcases List.mem_append.mp mem with old | added
    · exact .inl ⟨e', old, rfl, .inl rfl⟩
    · exact .inr ⟨t, input, id, c, rfl, stands, List.mem_singleton.mp added⟩

theorem request_step (step : s.step env a = some s') {t : Nat} (busy : s.tasks t ≠ .idle) :
    request ((s, a) :: trace) t = request trace t := by
  cases a with
  | start t' call =>
    cases call with
    | addCredential new =>
      have other : t' ≠ t := by
        rintro rfl
        simp only [System.step] at step
        rw [if_neg busy] at step
        cases step
      exact if_neg other
    | _ => rfl
  | task t' input | drop t' | operation op => rfl

theorem addedWith_push {t id : Nat} {input : Input} {c : KiroCredentials}
    (stands : s.tasks t = .addPushing id c) :
    addedWith ((s, .task t input) :: trace) id = (request trace t).bind identityOf := by
  rw [addedWith, stands]
  exact if_pos rfl

theorem addedWith_other {id : Nat}
    (other : ∀ t input i c, a = .task t input → s.tasks t = .addPushing i c → i ≠ id) :
    addedWith ((s, a) :: trace) id = addedWith trace id := by
  cases a with
  | task t input =>
    rw [addedWith]
    split
    · rename_i i c stands
      exact if_neg (other t input i c rfl stands)
    · rfl
  | start t call | drop t | operation op => rfl

theorem pending_step (step : s.step env a = some s') {t : Nat}
    (waits : pending (s'.tasks t) = true) :
    pending (s.tasks t) = true ∨ ∃ input new, a = .task t input ∧ s.tasks t = .adding new ∧
      (addCheck env s.manager new).isOk = true ∧ s'.manager = s.manager ∧
      pushOf (s'.tasks t) = none := by
  have adding : adds (s'.tasks t) = true := by
    cases stands : s'.tasks t with
    | addRefreshing _ | addChoosing _ _ | addPushing _ _ => rfl
    | _ =>
      rw [stands] at waits
      cases waits
  rcases task_step step t with same | ⟨call, -, started⟩ | ⟨input, next, rfl, taken, stands, made⟩ |
    ⟨-, dropped⟩
  · rw [same] at waits
    exact .inl waits
  · rw [started] at waits adding
    obtain ⟨new, -, first⟩ := adds_call adding
    rw [first] at waits
    cases waits
  · rw [stands] at adding
    obtain ⟨added, kept⟩ := addStep_of_step taken adding
    rw [stands]
    generalize s.tasks t = task at added
    generalize next.task = after at added
    cases added with
    | checked new _ passes waits same unpushed =>
      exact .inr ⟨input, new, rfl, rfl, passes, made.trans kept, unpushed⟩
    | validated | chosen => exact .inl rfl
  · rw [dropped] at waits
    cases waits

/-- What every pending addition keeps off the pool and off the others. -/
structure Kept (trace : List (System × Action)) (s : System) : Prop where
  requests : ∀ t, adds (s.tasks t) = true →
    ∃ new, request trace t = some new ∧ AddsFor new (s.tasks t)
  fresh : ∀ t id c, s.tasks t = .addPushing id c → id ∉ ids s.manager
  chosen : ∀ t t' id c c', s.tasks t = .addPushing id c → s.tasks t' = .addPushing id c' → t = t'
  held : ∀ t, pending (s.tasks t) = true → ∀ e ∈ s.manager.entries, ∀ key, keyOf e = some key →
    (request trace t).bind identityOf ≠ some (.apiKey key)
  added : ∀ t, pending (s.tasks t) = true → ∀ e ∈ s.manager.entries, ∀ token,
    addedWith trace e.id = some (.refreshToken token) →
    (request trace t).bind identityOf ≠ some (.refreshToken token)
  apart : ∀ t t', t ≠ t' → pending (s.tasks t) = true → pending (s.tasks t') = true →
    (request trace t).bind identityOf ≠ (request trace t').bind identityOf
  unique : Unique trace s

theorem busy_of_pending {t : Nat} (waits : pending (s.tasks t) = true) : s.tasks t ≠ .idle := by
  intro idle
  rw [idle] at waits
  cases waits

theorem pending_of_push {t id : Nat} {c : KiroCredentials} (stands : s.tasks t = .addPushing id c) :
    pending (s.tasks t) = true := by
  rw [stands]
  rfl

theorem Kept.push_key (kept : Kept trace s) {t id : Nat} {c : KiroCredentials}
    (stands : s.tasks t = .addPushing id c) {key : String} (holds : c.kiroApiKey = some key) :
    (request trace t).bind identityOf = some (.apiKey key) := by
  obtain ⟨new, requested, same⟩ := kept.requests t (by rw [stands]; rfl)
  rw [stands] at same
  rw [requested]
  exact identityOf_key (same.symm.trans holds)

theorem ne_of_push (step : s.step env a = some s') {t t₀ id : Nat} {input : Input}
    {c : KiroCredentials} (cause : a = .task t₀ input) (stands : s.tasks t₀ = .addPushing id c)
    (waits : pending (s'.tasks t) = true) : t ≠ t₀ := by
  rintro rfl
  subst cause
  obtain ⟨next, taken, rfl⟩ := Option.map_eq_some_iff.mp step
  rw [stands] at taken
  cases taken
  dsimp only at waits
  rw [Function.update_self] at waits
  cases waits

theorem Kept.requests_step (kept : Kept trace s) (step : s.step env a = some s') (t : Nat)
    (adding : adds (s'.tasks t) = true) :
    ∃ new, request ((s, a) :: trace) t = some new ∧ AddsFor new (s'.tasks t) := by
  have stays : adds (s.tasks t) = true →
      request ((s, a) :: trace) t = request trace t := by
    intro before
    refine request_step step fun idle => ?_
    rw [idle] at before
    cases before
  rcases task_step step t with same | ⟨call, rfl, started⟩ |
    ⟨input, next, rfl, taken, stands, made⟩ | ⟨-, dropped⟩
  · rw [same] at adding ⊢
    rw [stays adding]
    exact kept.requests t adding
  · rw [started] at adding ⊢
    obtain ⟨new, rfl, first⟩ := adds_call adding
    refine ⟨new, if_pos rfl, ?_⟩
    rw [first]
    exact rfl
  · rw [stands] at adding ⊢
    have from_step := (addStep_of_step taken adding).1
    have before : adds (s.tasks t) = true := by
      generalize s.tasks t = task at from_step
      generalize next.task = after at from_step
      cases from_step with
      | checked | validated | chosen => rfl
    obtain ⟨new, requested, same⟩ := kept.requests t before
    rw [stays before]
    refine ⟨new, requested, ?_⟩
    generalize s.tasks t = task at from_step same
    generalize next.task = after at from_step
    cases from_step with
    | checked n _ passes waits for_new unpushed =>
      cases same
      exact for_new
    | validated n v => exact same
    | chosen n v =>
      cases same
      exact key_addFinish _ _ _ _
  · rw [dropped] at adding
    cases adding

theorem Kept.request_adding (kept : Kept trace s) {t : Nat} {new : KiroCredentials}
    (stands : s.tasks t = .adding new) : request trace t = some new := by
  obtain ⟨n, requested, same⟩ := kept.requests t (by rw [stands]; rfl)
  rw [stands] at same
  cases same
  exact requested

theorem Kept.held_step (kept : Kept trace s) (step : s.step env a = some s') (t : Nat)
    (waits : pending (s'.tasks t) = true) (e' : CredentialEntry) (mem : e' ∈ s'.manager.entries)
    (key : String) (holds : keyOf e' = some key) :
    (request ((s, a) :: trace) t).bind identityOf ≠ some (.apiKey key) := by
  rcases pending_step step waits with before | ⟨input, new, rfl, stands, passes, same, -⟩
  · rw [request_step step (busy_of_pending before)]
    rcases entry_cases step mem with ⟨e, listed, -, sameKey | gone⟩ |
      ⟨t₀, input, id, c, cause, stands, rfl⟩
    · exact kept.held t before e listed key (sameKey ▸ holds)
    · rw [gone] at holds
      cases holds
    · have other := ne_of_push step cause stands waits
      rw [← kept.push_key stands holds]
      exact kept.apart t t₀ other before (pending_of_push stands)
  · have requested := kept.request_adding stands
    have stays : request ((s, .task t input) :: trace) t = request trace t := rfl
    rw [stays, requested]
    rw [same] at mem
    exact fun identity => unheld_of_addCheck passes identity e' mem holds

theorem Kept.added_cases (kept : Kept trace s) (step : s.step env a = some s')
    {e' : CredentialEntry} (mem : e' ∈ s'.manager.entries) :
    (∃ e ∈ s.manager.entries, e'.id = e.id ∧
      addedWith ((s, a) :: trace) e'.id = addedWith trace e.id) ∨
    ∃ t input c, a = .task t input ∧ s.tasks t = .addPushing e'.id c ∧
      addedWith ((s, a) :: trace) e'.id = (request trace t).bind identityOf := by
  rcases entry_cases step mem with ⟨e, listed, same, -⟩ | ⟨t, input, id, c, rfl, stands, rfl⟩
  · refine .inl ⟨e, listed, same, ?_⟩
    rw [same]
    refine addedWith_other fun t input i c cause stands => ?_
    rintro rfl
    exact kept.fresh t e.id c stands (List.mem_map_of_mem listed)
  · exact .inr ⟨t, input, c, rfl, stands, addedWith_push stands⟩

theorem Kept.added_step (kept : Kept trace s) (apart : Apart env trace s a)
    (step : s.step env a = some s') (t : Nat) (waits : pending (s'.tasks t) = true)
    (e' : CredentialEntry) (mem : e' ∈ s'.manager.entries) (token : String)
    (added : addedWith ((s, a) :: trace) e'.id = some (.refreshToken token)) :
    (request ((s, a) :: trace) t).bind identityOf ≠ some (.refreshToken token) := by
  rcases pending_step step waits with before | ⟨input, new, rfl, stands, passes, same, -⟩
  · rw [request_step step (busy_of_pending before)]
    rcases kept.added_cases step mem with ⟨e, listed, -, eq⟩ | ⟨t₀, input, c, cause, stands, eq⟩
    · rw [eq] at added
      exact kept.added t before e listed token added
    · have other := ne_of_push step cause stands waits
      rw [← added, eq]
      exact kept.apart t t₀ other before (pending_of_push stands)
  · have requested := kept.request_adding stands
    have stays : request ((s, .task t input) :: trace) t = request trace t := rfl
    have unpushed : addedWith ((s, .task t input) :: trace) e'.id = addedWith trace e'.id := by
      refine addedWith_other fun t' input' i c cause stands' => ?_
      cases cause
      rw [stands] at stands'
      cases stands'
    rw [stays, requested]
    rw [unpushed] at added
    rw [same] at mem
    intro identity
    have still := apart.still t input new rfl stands e' mem token identity added
    exact other_token_of_addCheck passes identity e' mem still

theorem Kept.apart_step (kept : Kept trace s) (apart : Apart env trace s a)
    (step : s.step env a = some s') (t t' : Nat) (ne : t ≠ t')
    (waits : pending (s'.tasks t) = true) (waits' : pending (s'.tasks t') = true) :
    (request ((s, a) :: trace) t).bind identityOf ≠
      (request ((s, a) :: trace) t').bind identityOf := by
  rcases pending_step step waits with before | ⟨input, new, rfl, stands, passes, -, -⟩
  · rcases pending_step step waits' with before' | ⟨input, new, rfl, stands, passes, -, -⟩
    · rw [request_step step (busy_of_pending before), request_step step (busy_of_pending before')]
      exact kept.apart t t' ne before before'
    · have checks := apart.checks t' input new rfl stands passes t before
      have requested := kept.request_adding stands
      rw [← Option.bind_some new identityOf, ← requested] at checks
      exact checks
  · rcases pending_step step waits' with before' | ⟨input', new', cause, -⟩
    · have checks := apart.checks t input new rfl stands passes t' before'
      have requested := kept.request_adding stands
      rw [← Option.bind_some new identityOf, ← requested] at checks
      exact checks.symm
    · cases cause
      exact absurd rfl ne

theorem nextId_fresh {m : MultiTokenManager} (fits : maxId m.entries + 1 < 2 ^ 64) :
    nextId m.entries ∉ ids m := by
  intro mem
  obtain ⟨e, listed, same⟩ := List.mem_map.mp mem
  have bound := le_maxId listed
  unfold nextId at same
  rw [Nat.mod_eq_of_lt fits] at same
  omega

theorem push_step (step : s.step env a = some s') {t id : Nat} {c : KiroCredentials}
    (stands : s'.tasks t = .addPushing id c) :
    s.tasks t = .addPushing id c ∨ ∃ input new validated, a = .task t input ∧
      s.tasks t = .addChoosing new validated ∧ id = nextId s.manager.entries ∧
      s'.manager = s.manager := by
  have pushing : pushOf (s'.tasks t) = some (id, c) := by
    rw [stands]
    rfl
  rcases task_step step t with same | ⟨call, -, started⟩ | ⟨input, next, rfl, taken, after, made⟩ |
    ⟨-, dropped⟩
  · exact .inl (same.symm.trans stands)
  · rw [started, pushOf_call] at pushing
    cases pushing
  · rw [after] at pushing
    obtain ⟨kept, new, validated, choosing, chosen, -⟩ := pushOf_stepTask taken pushing
    exact .inr ⟨input, new, validated, rfl, choosing, chosen, made.trans kept⟩
  · rw [dropped] at stands
    cases stands

theorem Kept.fresh_step (kept : Kept trace s) (apart : Apart env trace s a)
    (step : s.step env a = some s') (t id : Nat) (c : KiroCredentials)
    (stands : s'.tasks t = .addPushing id c) : id ∉ ids s'.manager := by
  rcases push_step step stands with before | ⟨input, new, validated, rfl, choosing, rfl, same⟩
  · intro mem
    obtain ⟨e', listed, here⟩ := List.mem_map.mp mem
    rcases entry_cases step listed with ⟨e, listed, same, -⟩ |
      ⟨t₀, input, id₀, c₀, cause, stands₀, rfl⟩
    · rw [same] at here
      exact kept.fresh t id c before (List.mem_map.mpr ⟨e, listed, here⟩)
    · dsimp only at here
      subst here
      exact ne_of_push step cause stands₀ (pending_of_push stands)
        (kept.chosen t t₀ id₀ c c₀ before stands₀)
  · rw [same]
    exact nextId_fresh (apart.fits t input new validated rfl choosing)

theorem Kept.chosen_step (kept : Kept trace s) (apart : Apart env trace s a)
    (step : s.step env a = some s') (t t' id : Nat) (c c' : KiroCredentials)
    (stands : s'.tasks t = .addPushing id c) (stands' : s'.tasks t' = .addPushing id c') :
    t = t' := by
  rcases push_step step stands with before | ⟨input, new, validated, rfl, choosing, rfl, -⟩
  · rcases push_step step stands' with before' | ⟨input, new, validated, rfl, choosing, rfl, -⟩
    · exact kept.chosen t t' id c c' before before'
    · exact absurd before (apart.ids t' input new validated rfl choosing t c)
  · rcases push_step step stands' with before' | ⟨input', new', validated', cause, -⟩
    · exact absurd before' (apart.ids t input new validated rfl choosing t' c')
    · cases cause
      rfl

theorem Kept.unique_step (kept : Kept trace s) (step : s.step env a = some s') :
    Unique ((s, a) :: trace) s' := by
  obtain ⟨distinct, unheld, apart⟩ := kept.unique
  refine ⟨?_, ?_, ?_⟩
  · rcases ids_step step with same | fewer | ⟨t, input, id, c, -, stands, new⟩
    · rw [same]
      exact distinct
    · exact fewer.nodup distinct
    · rw [new]
      refine List.nodup_append'.mpr ⟨distinct, List.nodup_singleton id, ?_⟩
      exact List.disjoint_singleton.mpr (kept.fresh t id c stands)
  · unfold keys at unheld ⊢
    rcases entries_step step with changes | ⟨id, e, -, -, -, left⟩ |
      ⟨t, input, id, c, -, stands, new⟩
    · exact (keys_of_changes changes).nodup unheld
    · rw [left]
      exact (List.filter_sublist.filterMap _).nodup unheld
    · rw [new, List.filterMap_append]
      cases holds : c.kiroApiKey with
      | none =>
        have none : keyOf { id := id, credentials := c } = none := holds
        rw [List.filterMap_cons_none none, List.filterMap_nil, List.append_nil]
        exact unheld
      | some key =>
        have some : keyOf { id := id, credentials := c } = some key := holds
        rw [List.filterMap_cons_some some, List.filterMap_nil]
        refine List.nodup_append'.mpr ⟨unheld, List.nodup_singleton key, ?_⟩
        refine List.disjoint_singleton.mpr fun mem => ?_
        obtain ⟨e, listed, same⟩ := List.mem_filterMap.mp mem
        exact kept.held t (pending_of_push stands) e listed key same (kept.push_key stands holds)
  · intro e₁ mem₁ e₂ mem₂ ne token added₁ added₂
    rcases kept.added_cases step mem₁ with ⟨d₁, listed₁, id₁, eq₁⟩ | ⟨t₁, input₁, c₁, cause₁, stands₁, eq₁⟩
    · rcases kept.added_cases step mem₂ with ⟨d₂, listed₂, id₂, eq₂⟩ |
        ⟨t₂, input₂, c₂, cause₂, stands₂, eq₂⟩
      · rw [eq₁] at added₁
        rw [eq₂] at added₂
        rw [id₁, id₂] at ne
        exact apart d₁ listed₁ d₂ listed₂ ne token added₁ added₂
      · rw [eq₁] at added₁
        rw [eq₂] at added₂
        exact kept.added t₂ (pending_of_push stands₂) d₁ listed₁ token added₁ added₂
    · rcases kept.added_cases step mem₂ with ⟨d₂, listed₂, id₂, eq₂⟩ |
        ⟨t₂, input₂, c₂, cause₂, stands₂, eq₂⟩
      · rw [eq₁] at added₁
        rw [eq₂] at added₂
        exact kept.added t₁ (pending_of_push stands₁) d₂ listed₂ token added₂ added₁
      · rw [cause₁] at cause₂
        cases cause₂
        rw [stands₁] at stands₂
        injection stands₂ with same
        exact ne same

theorem Kept.step (kept : Kept trace s) (apart : Apart env trace s a)
    (step : s.step env a = some s') : Kept ((s, a) :: trace) s' :=
  ⟨kept.requests_step step, kept.fresh_step apart step, kept.chosen_step apart step,
    kept.held_step step, kept.added_step apart step, kept.apart_step apart step,
    kept.unique_step step⟩

/-- In every run whose additions are kept apart, the ids and the API keys of the pool stay distinct,
and no two of its entries were added with the same refresh token. -/
theorem additions_stay_unique (env : Env) (m : MultiTokenManager) (distinct : (ids m).Nodup)
    (unheld : (keys m).Nodup) {trace : List (System × Action)} {s : System}
    (run : PoolRun env m trace s) (apart : AllApart env trace) : Unique trace s := by
  have kept : Kept trace s := by
    induction run with
    | nil =>
      refine ⟨fun _ none => (by cases none), fun _ _ _ none => (by cases none),
        fun _ _ _ _ _ none => (by cases none), fun _ none => (by cases none),
        fun _ none => (by cases none), fun _ _ _ none => (by cases none), distinct, unheld, ?_⟩
      intro e _ e' _ _ token none
      cases none
    | cons run taken ih => exact (ih apart.1).step apart.2 taken
  exact kept.unique

/-- The entry was added with the refresh token that is added, and does not hold it any more. -/
def outlived (earlier : List (System × Action)) (new : KiroCredentials) (e : CredentialEntry) :
    Bool :=
  match identityOf new with
  | some (.refreshToken token) =>
    addedWith earlier e.id == some (.refreshToken token) &&
      e.credentials.refreshToken != some token
  | _ => false

def apartCheck (env : Env) (ts : List Nat) (earlier : List (System × Action))
    (p : System × Action) : Bool :=
  match p.2 with
  | .task t _ =>
    match p.1.tasks t with
    | .addChoosing _ _ =>
      decide (maxId p.1.manager.entries + 1 < 2 ^ 64) && ts.all fun t' =>
        (pushOf (p.1.tasks t')).all (·.1 != nextId p.1.manager.entries)
    | .adding new =>
      (!(addCheck env p.1.manager new).isOk || ts.all fun t' =>
        !pending (p.1.tasks t') || (request earlier t').bind identityOf != identityOf new) &&
        !p.1.manager.entries.any (outlived earlier new)
    | _ => true
  | _ => true

def allApartCheck (env : Env) (ts : List Nat) : List (System × Action) → Bool
  | [] => true
  | p :: earlier => allApartCheck env ts earlier && apartCheck env ts earlier p

theorem apart_of_check {ts : List Nat} {earlier : List (System × Action)}
    (checked : apartCheck env ts earlier (s, a) = true)
    (idle : ∀ t, t ∉ ts → s.tasks t = .idle) : Apart env earlier s a := by
  have listed {t : Nat} (waits : pending (s.tasks t) = true) : t ∈ ts := by
    by_contra other
    rw [idle t other] at waits
    cases waits
  refine ⟨?_, ?_, ?_, ?_⟩
  · rintro t input new validated rfl choosing
    simp only [apartCheck, choosing, Bool.and_eq_true, decide_eq_true_eq] at checked
    exact checked.1
  · rintro t input new validated rfl choosing t' c pushing
    simp only [apartCheck, choosing, Bool.and_eq_true] at checked
    have apart := List.all_eq_true.mp checked.2 t' (listed (pending_of_push pushing))
    rw [pushing] at apart
    simp [pushOf] at apart
  · rintro t input new rfl adding passes t' waits
    simp only [apartCheck, adding, Bool.and_eq_true, passes, Bool.not_true, Bool.false_or] at checked
    have apart := List.all_eq_true.mp checked.1 t' (listed waits)
    rw [waits, Bool.not_true, Bool.false_or, bne_iff_ne] at apart
    exact apart
  · rintro t input new rfl adding e mem token identity added
    simp only [apartCheck, adding, Bool.and_eq_true, Bool.not_eq_true', List.any_eq_false]
      at checked
    have held := checked.2 e mem
    rw [outlived, identity] at held
    simp only [added, beq_self_eq_true, Bool.true_and, bne_iff_ne, ne_eq, not_not] at held
    exact held

theorem allApart_of_check {m : MultiTokenManager} {ts : List Nat} (run : PoolRun env m trace s)
    (checked : allApartCheck env ts trace = true) (within : actsWithin ts trace = true) :
    AllApart env trace := by
  induction run with
  | nil => trivial
  | @cons trace s s' a run taken ih =>
    obtain ⟨before, here⟩ := Bool.and_eq_true_iff.mp checked
    obtain ⟨-, earlier⟩ := Bool.and_eq_true_iff.mp within
    exact ⟨ih before earlier,
      apart_of_check here fun t other => (idle_of_actsWithin run earlier other).1⟩

def emptyPool : MultiTokenManager where
  config := ⟨"us-east-1", none, none⟩
  entries := []
  currentId := 0
  loadBalancingMode := "priority"
  enterpriseProfileFetchAttempted := []

def addsKey (key : String) : Call := .addCredential { kiroApiKey := some key }

def addsToken (token : String) : Call := .addCredential { refreshToken := some token }

/-- Two additions with API keys and one with a refresh token overlap, and the key and the token
are then added again. -/
def overlappingAdditions : List Action :=
  [.start 0 (addsKey "ksk_1"), .start 1 (addsKey "ksk_2"), .start 2 (addsToken longToken),
    .task 0 {}, .task 2 {}, .task 1 {}, .task 1 {}, .task 1 {}, .start 3 (addsKey "ksk_2"),
    .task 2 { refresh := .ok ⟨"access", none, none, none⟩ }, .task 0 {}, .task 3 {}, .task 0 {},
    .task 2 {}, .task 2 {}, .start 4 (addsToken longToken), .task 4 {}]

theorem overlappingAdditions_run :
    ((follow (System.step plainEnv) [] (System.initial emptyPool) overlappingAdditions).any
      fun reached => allApartCheck plainEnv [0, 1, 2, 3, 4] reached.1 &&
        actsWithin [0, 1, 2, 3, 4] reached.1 && ids reached.2.manager == [1, 2, 3] &&
        keys reached.2.manager == ["ksk_2", "ksk_1"] &&
        decide (reached.2.tasks 3 = .failed ∧ reached.2.tasks 4 = .failed)) = true := by
  decide +kernel

/-- Three entries with ids of their own, and two additions that are refused. -/
theorem additions_stay_unique_overlapping : ∃ trace s, PoolRun plainEnv emptyPool trace s ∧
    ids s.manager = [1, 2, 3] ∧ keys s.manager = ["ksk_2", "ksk_1"] ∧
    s.tasks 3 = .failed ∧ s.tasks 4 = .failed ∧ Unique trace s := by
  obtain ⟨trace, s, run, -, holds⟩ := exists_run_of_follow overlappingAdditions_run
  simp only [Bool.and_eq_true, beq_iff_eq, decide_eq_true_eq] at holds
  obtain ⟨⟨⟨⟨checked, within⟩, numbered⟩, held⟩, refused⟩ := holds
  exact ⟨trace, s, run, numbered, held, refused.1, refused.2,
    additions_stay_unique plainEnv emptyPool List.nodup_nil List.nodup_nil run
      (allApart_of_check run checked within)⟩

def twoAdditions : List Action :=
  [.start 0 (addsKey "ksk_1"), .start 1 (addsKey "ksk_2"), .task 0 {}, .task 0 {}, .task 1 {},
    .task 1 {}, .task 0 {}, .task 1 {}]

theorem twoAdditions_run :
    ((follow (System.step plainEnv) [] (System.initial emptyPool) twoAdditions).any fun reached =>
      ids reached.2.manager == [1, 1]) = true := by
  decide +kernel

/-- Two credentials get the same id. -/
theorem one_id_for_two : ¬ ∀ (env : Env) (m : MultiTokenManager), (ids m).Nodup →
    (keys m).Nodup → ∀ (trace : List (System × Action)) (s : System),
      PoolRun env m trace s → Unique trace s := by
  intro claim
  obtain ⟨reached, followed, holds⟩ := (Option.any_eq_true _ _).mp twoAdditions_run
  obtain ⟨run, -⟩ := follow_run .nil followed
  have distinct := (claim plainEnv emptyPool List.nodup_nil List.nodup_nil _ _ run).ids
  rw [beq_iff_eq.mp holds] at distinct
  exact absurd distinct (by decide)

end KiroRs.Pool.Additions
