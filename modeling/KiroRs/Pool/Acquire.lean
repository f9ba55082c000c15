/- Path: KiroRs/Pool/Acquire
   source: src/kiro/token_manager.rs
   digest: The steps of one `acquire_context` and the token attempts that it has left. -/

import KiroRs.Pool.ManualDisable

set_option autoImplicit false
set_option relaxedAutoImplicit false

namespace KiroRs.Pool.Acquire

open KiroRs.Lib.Traces
open KiroRs.Pool.Credentials
open KiroRs.Pool.Manager
open KiroRs.Pool.Manager.MultiTokenManager
open KiroRs.Pool.Tasks
open KiroRs.Pool.ManualDisable (ids ids_update mem_update)

variable {env : Env} {t : Nat} {input : Input} {m : MultiTokenManager} {lock : Option Nat}
variable {task : Task} {next : Next} {a : Attempt} {id : Nat}

def budget (a : Attempt) : Nat := max (a.total * maxFailuresPerCredential) 1

/-- The places of an `acquire_context`, with the holder of the refresh lock. -/
def Sound (t : Nat) (lock : Option Nat) : Task → Prop
  | .loopHead _ => lock = none
  | .stickyCheck a | .selecting a | .healing a | .reselecting a | .switching a _ _
  | .token (.acquire a) _ _ | .lockWait (.acquire a) _ | .recovering a _ | .reloading a _ _
  | .reportingInvalid a _ | .reportingFailure a _ => a.attemptCount < budget a ∧ lock = none
  | .rereading (.acquire a) _ | .refreshing (.acquire a) _ _ =>
      a.attemptCount < budget a ∧ lock = some t
  | .profile _ _ _ _ | .fetchingProfile _ _ _ _ | .fallbackProfile _ _ _ _
  | .settingProfile _ _ _ _ _ | .finishing _ _ _ _ | .returned _ _ | .failed => lock = none
  | _ => False

def asks : Task → Nat
  | .token (.acquire _) _ _ => 1
  | _ => 0

def reloads : Task → Nat
  | .reloading _ _ _ => 1
  | _ => 0

/-- The attempts that are left before the next one, where `r` reloads may still come. -/
def left (r : Nat) (a : Attempt) : Nat := budget a - a.attemptCount + r

def tokensLeft (r : Nat) : Task → Nat
  | .loopHead a | .stickyCheck a | .selecting a | .healing a | .reselecting a | .switching a _ _
  | .token (.acquire a) _ _ => left r a
  | .lockWait (.acquire a) _ | .rereading (.acquire a) _ | .refreshing (.acquire a) _ _
  | .recovering a _ | .reloading a _ _ | .reportingInvalid a _ | .reportingFailure a _ =>
      left r a - 1
  | _ => 0

def stage : Task → Nat
  | .loopHead _ => 7
  | .stickyCheck _ => 6
  | .selecting _ => 5
  | .healing _ => 4
  | .reselecting _ => 3
  | .switching _ _ _ => 2
  | .token _ _ _ => 1
  | .lockWait _ _ => 17
  | .rereading _ _ => 16
  | .refreshing _ _ _ => 15
  | .profile _ _ _ _ => 14
  | .fetchingProfile _ _ _ _ => 13
  | .fallbackProfile _ _ _ _ => 12
  | .settingProfile _ _ _ _ _ => 11
  | .finishing _ _ _ _ => 10
  | .recovering _ _ => 11
  | .reloading _ _ _ | .reportingInvalid _ _ | .reportingFailure _ _ => 10
  | _ => 0

def cost (r : Nat) (task : Task) : Nat := 20 * tokensLeft r task + stage task

/-- One step of an `acquire_context`: a token attempt and every step are paid for. -/
structure Paid (t r : Nat) (task : Task) (next : Next) : Prop where
  sound : Sound t next.refreshLock next.task
  tokens : tokensLeft r next.task + asks task ≤ tokensLeft (r + reloads task) task
  steps : cost r next.task < cost (r + reloads task) task

theorem withAccessToken_acquire (a : Attempt) (id : Nat) (c : KiroCredentials) :
    (∃ token, withAccessToken (.acquire a) id c = .profile a id c token) ∨
      withAccessToken (.acquire a) id c = .reportingFailure a id := by
  unfold withAccessToken
  cases c.accessToken with
  | none => exact .inr rfl
  | some token => exact .inl ⟨token, rfl⟩

theorem tokenFailed_acquire (a : Attempt) (id : Nat) (e : RefreshError) :
    tokenFailed (.acquire a) id e = .recovering a id ∨
      tokenFailed (.acquire a) id e = .reportingFailure a id := by
  cases e with
  | invalid message => exact .inl rfl
  | other message => exact .inr rfl

theorem tokenTask_acquire (env : Env) (utcNow : Int) (a : Attempt) (id : Nat)
    (c : KiroCredentials) :
    (∃ context, tokenTask env utcNow (.acquire a) id c = .returned a.model context) ∨
      tokenTask env utcNow (.acquire a) id c = .lockWait (.acquire a) id ∨
      (∃ token, tokenTask env utcNow (.acquire a) id c = .profile a id c token) ∨
      tokenTask env utcNow (.acquire a) id c = .reportingFailure a id := by
  unfold tokenTask
  split_ifs
  · cases c.kiroApiKey with
    | none => exact .inr (.inr (.inr rfl))
    | some key => exact .inl ⟨_, rfl⟩
  · exact .inr (.inl rfl)
  · rcases withAccessToken_acquire a id c with profile | failure
    · exact .inr (.inr (.inl profile))
    · exact .inr (.inr (.inr failure))

theorem paid_of {r : Nat} {m' : MultiTokenManager} {lock' : Option Nat} {task' : Task}
    (taken : some (⟨m', lock', task'⟩ : Next) = some next) (sound : Sound t lock' task')
    (tokens : tokensLeft r task' + asks task ≤ tokensLeft (r + reloads task) task)
    (steps : 20 * tokensLeft r task' + stage task' <
      20 * tokensLeft (r + reloads task) task + stage task) : Paid t r task next := by
  cases taken
  exact ⟨sound, tokens, steps⟩

theorem left_pos {r : Nat} (some_left : a.attemptCount < budget a) : 0 < left r a := by
  unfold left
  omega

theorem left_succ (r : Nat) : left (r + 1) a = left r a + 1 := rfl

theorem left_counted {r : Nat} (some_left : a.attemptCount < budget a) :
    left r { a with attemptCount := a.attemptCount + 1 } + 1 = left r a := by
  unfold left
  have same : budget { a with attemptCount := a.attemptCount + 1 } = budget a := rfl
  rw [same]
  dsimp only
  omega

theorem paid_failed {r id : Nat} {e : RefreshError} {m' : MultiTokenManager}
    (some_left : a.attemptCount < budget a)
    (taken : some (⟨m', none, tokenFailed (.acquire a) id e⟩ : Next) = some next)
    (began : asks task = 0) (same : tokensLeft r task = left r a - 1) (plain : reloads task = 0)
    (late : 11 < stage task) : Paid t r task next := by
  rcases tokenFailed_acquire a id e with file | report
  · rw [file] at taken
    refine paid_of taken ⟨some_left, rfl⟩ ?_ ?_
    · show left r a - 1 + asks task ≤ _
      rw [began, plain, Nat.add_zero, Nat.add_zero, same]
    · show 20 * (left r a - 1) + 11 < _
      rw [plain, Nat.add_zero r, same]
      omega
  · rw [report] at taken
    refine paid_of taken ⟨some_left, rfl⟩ ?_ ?_
    · show left r a - 1 + asks task ≤ _
      rw [began, plain, Nat.add_zero, Nat.add_zero, same]
    · show 20 * (left r a - 1) + 10 < _
      rw [plain, Nat.add_zero r, same]
      omega

theorem paid_profiled {r id : Nat} {c : KiroCredentials} {m' : MultiTokenManager}
    (some_left : a.attemptCount < budget a)
    (taken : some (⟨m', none, withAccessToken (.acquire a) id c⟩ : Next) = some next)
    (began : asks task = 0) (same : tokensLeft r task = left r a - 1) (plain : reloads task = 0)
    (late : 14 < stage task) : Paid t r task next := by
  rcases withAccessToken_acquire a id c with ⟨token, eq⟩ | eq
  · rw [eq] at taken
    refine paid_of taken rfl ?_ ?_
    · show 0 + asks task ≤ _
      omega
    · show 20 * 0 + 14 < _
      omega
  · rw [eq] at taken
    refine paid_of taken ⟨some_left, rfl⟩ ?_ ?_
    · show left r a - 1 + asks task ≤ _
      rw [began, plain, Nat.add_zero, Nat.add_zero, same]
    · show 20 * (left r a - 1) + 10 < _
      rw [plain, Nat.add_zero r, same]
      omega

theorem paid_counted {r : Nat} {m' : MultiTokenManager} {lock' : Option Nat}
    (some_left : a.attemptCount < budget a) (free : lock' = none)
    (taken : some (⟨m', lock', .loopHead { a with attemptCount := a.attemptCount + 1 }⟩ : Next) =
      some next)
    (began : asks task = 0) (same : tokensLeft r task = left r a - 1) (plain : reloads task = 0)
    (late : stage task = 10) : Paid t r task next := by
  have counted := left_counted (r := r) some_left
  refine paid_of taken free ?_ ?_
  · show left r { a with attemptCount := a.attemptCount + 1 } + asks task ≤ _
    rw [plain, Nat.add_zero r, same]
    omega
  · show 20 * left r { a with attemptCount := a.attemptCount + 1 } + 7 < _
    rw [plain, Nat.add_zero r, same]
    omega

theorem paid_token {r id : Nat} {c : KiroCredentials}
    (sound : Sound t lock (.token (.acquire a) id c))
    (taken : stepTask env t input m lock (.token (.acquire a) id c) = some next) :
    Paid t r (.token (.acquire a) id c) next := by
  simp only [stepTask] at taken
  have pos : 0 < left r a := left_pos sound.1
  rcases tokenTask_acquire env input.utcNow a id c with ⟨context, eq⟩ | eq | ⟨token, eq⟩ | eq
  · rw [eq] at taken
    refine paid_of taken sound.2 ?_ ?_
    · show 0 + 1 ≤ left r a
      omega
    · show 20 * 0 + 0 < 20 * left r a + 1
      omega
  · rw [eq] at taken
    refine paid_of taken sound ?_ ?_
    · show left r a - 1 + 1 ≤ left r a
      omega
    · show 20 * (left r a - 1) + 17 < 20 * left r a + 1
      omega
  · rw [eq] at taken
    refine paid_of taken sound.2 ?_ ?_
    · show 0 + 1 ≤ left r a
      omega
    · show 20 * 0 + 14 < 20 * left r a + 1
      omega
  · rw [eq] at taken
    refine paid_of taken sound ?_ ?_
    · show left r a - 1 + 1 ≤ left r a
      omega
    · show 20 * (left r a - 1) + 10 < 20 * left r a + 1
      omega

theorem paid_rereading {r id : Nat} (sound : Sound t lock (.rereading (.acquire a) id))
    (taken : stepTask env t input m lock (.rereading (.acquire a) id) = some next) :
    Paid t r (.rereading (.acquire a) id) next := by
  simp only [stepTask] at taken
  cases found : m.find id with
  | none =>
    rw [found] at taken
    exact paid_failed sound.1 taken rfl rfl rfl (by simp [stage])
  | some e =>
    rw [found] at taken
    dsimp only at taken
    split_ifs at taken
    · exact paid_of taken sound (Nat.le_refl _) (by simp [tokensLeft, stage, reloads])
    · exact paid_profiled sound.1 taken rfl rfl rfl (by simp [stage])

theorem paid_refreshing {r id : Nat} {snapshot : KiroCredentials}
    (sound : Sound t lock (.refreshing (.acquire a) id snapshot))
    (taken : stepTask env t input m lock (.refreshing (.acquire a) id snapshot) = some next) :
    Paid t r (.refreshing (.acquire a) id snapshot) next := by
  simp only [stepTask] at taken
  cases answer : refreshToken snapshot input.refresh with
  | error e =>
    rw [answer] at taken
    exact paid_failed sound.1 taken rfl rfl rfl (by simp [stage])
  | ok new =>
    rw [answer] at taken
    dsimp only at taken
    split_ifs at taken
    · exact paid_failed sound.1 taken rfl rfl rfl (by simp [stage])
    · exact paid_profiled sound.1 taken rfl rfl rfl (by simp [stage])

/-- The places behind the choice of a credential and before its token. -/
theorem paid_selection {r : Nat} (place : stage task ≤ 7) (early : 2 ≤ stage task)
    (sound : Sound t lock task) (taken : stepTask env t input m lock task = some next) :
    Paid t r task next := by
  cases task with
  | loopHead a =>
    simp only [stepTask] at taken
    split_ifs at taken with spent balanced
    · exact paid_of taken sound (Nat.zero_le _) (by simp [tokensLeft, stage])
    · exact paid_of taken ⟨Nat.lt_of_not_le spent, sound⟩ (Nat.le_refl _)
        (by simp [tokensLeft, stage, reloads])
    · exact paid_of taken ⟨Nat.lt_of_not_le spent, sound⟩ (Nat.le_refl _)
        (by simp [tokensLeft, stage, reloads])
  | stickyCheck a | selecting a =>
    simp only [stepTask] at taken
    split at taken
    · exact paid_of taken sound (Nat.le_refl _) (by simp [tokensLeft, stage, reloads])
    · exact paid_of taken sound (Nat.le_refl _) (by simp [tokensLeft, stage, reloads])
  | healing a =>
    simp only [stepTask] at taken
    split_ifs at taken
    · exact paid_of taken sound (Nat.le_refl _) (by simp [tokensLeft, stage, reloads])
    · exact paid_of taken sound.2 (Nat.zero_le _) (by simp [tokensLeft, stage, reloads])
  | reselecting a =>
    simp only [stepTask] at taken
    split at taken
    · exact paid_of taken sound (Nat.le_refl _) (by simp [tokensLeft, stage, reloads])
    · exact paid_of taken sound.2 (Nat.zero_le _) (by simp [tokensLeft, stage, reloads])
  | switching a id c =>
    exact paid_of taken sound (Nat.le_refl _) (by simp [tokensLeft, stage, reloads])
  | _ => simp [stage] at place early

theorem paid_step (r : Nat) (sound : Sound t lock task)
    (taken : stepTask env t input m lock task = some next) : Paid t r task next := by
  cases task with
  | loopHead a | stickyCheck a | selecting a | healing a | reselecting a | switching a id c =>
    exact paid_selection (by simp [stage]) (by simp [stage]) sound taken
  | token purpose id c =>
    cases purpose with
    | acquire a => exact paid_token sound taken
    | usage | models | preference => exact sound.elim
  | lockWait purpose id =>
    cases purpose with
    | acquire a =>
      simp only [stepTask] at taken
      split_ifs at taken
      exact paid_of taken ⟨sound.1, rfl⟩ (Nat.le_refl _) (by simp [tokensLeft, stage, reloads])
    | usage | models | preference => exact sound.elim
  | rereading purpose id =>
    cases purpose with
    | acquire a => exact paid_rereading sound taken
    | usage | models | preference => exact sound.elim
  | refreshing purpose id snapshot =>
    cases purpose with
    | acquire a => exact paid_refreshing sound taken
    | usage | models | preference => exact sound.elim
  | profile a id c token =>
    simp only [stepTask] at taken
    split_ifs at taken <;>
      exact paid_of taken sound (Nat.zero_le _) (by simp [tokensLeft, stage])
  | fetchingProfile a id c token =>
    simp only [stepTask] at taken
    split at taken <;> exact paid_of taken sound (Nat.zero_le _) (by simp [tokensLeft, stage])
  | fallbackProfile a id c token =>
    simp only [stepTask] at taken
    split at taken
    · exact paid_of taken sound (Nat.zero_le _) (by simp [tokensLeft, stage])
    · split_ifs at taken <;>
        exact paid_of taken sound (Nat.zero_le _) (by simp [tokensLeft, stage])
  | settingProfile a id c token arn =>
    simp only [stepTask] at taken
    split at taken <;> exact paid_of taken sound (Nat.zero_le _) (by simp [tokensLeft, stage])
  | finishing a id c token =>
    exact paid_of taken sound (Nat.zero_le _) (by simp [tokensLeft, stage])
  | recovering a id =>
    simp only [stepTask] at taken
    split at taken <;>
      exact paid_of taken sound (Nat.le_refl _) (by simp [tokensLeft, stage, reloads])
  | reloading a id found =>
    refine paid_of taken sound.2 (Nat.le_refl _) ?_
    show 20 * left r a + 7 < 20 * (left (r + 1) a - 1) + 10
    rw [left_succ]
    omega
  | reportingInvalid a id | reportingFailure a id =>
    simp only [stepTask] at taken
    split_ifs at taken
    · exact paid_counted sound.1 sound.2 taken rfl rfl rfl rfl
    · exact paid_of taken sound.2 (Nat.zero_le _) (by simp [tokensLeft, stage])
  | returned model context | failed => cases taken
  | idle | done | reading _ _ | querying _ _ | awaitingUsage _ | fillingTitle _ _
  | fillingEmail _ _ | forceReading _ | forceWaiting _ _ | forceRefreshing _ _ | adding _
  | addRefreshing _ | addChoosing _ _ | addPushing _ _ => exact sound.elim

/-- An `acquire_context` that has not ended is not blocked. -/
theorem progress (sound : Sound t lock task) (waits : task.waits = true) :
    (stepTask env t input m lock task).isSome = true := by
  cases task with
  | loopHead a =>
    simp only [stepTask]
    split_ifs <;> rfl
  | stickyCheck a | selecting a | reselecting a | recovering a id =>
    simp only [stepTask]
    split <;> rfl
  | healing a =>
    simp only [stepTask]
    split_ifs <;> rfl
  | lockWait purpose id =>
    cases purpose with
    | acquire a =>
      simp only [stepTask]
      rw [if_pos sound.2]
      rfl
    | usage | models | preference => exact sound.elim
  | rereading purpose id =>
    cases purpose with
    | acquire a =>
      simp only [stepTask]
      split
      · rfl
      · split_ifs <;> rfl
    | usage | models | preference => exact sound.elim
  | refreshing purpose id snapshot =>
    cases purpose with
    | acquire a =>
      simp only [stepTask]
      split
      · rfl
      · split_ifs <;> rfl
    | usage | models | preference => exact sound.elim
  | profile a id c token | fetchingProfile a id c token | fallbackProfile a id c token
  | settingProfile a id c token arn =>
    simp only [stepTask]
    split <;> (try split) <;> rfl
  | switching _ _ _ | token _ _ _ | finishing _ _ _ _ | reloading _ _ _ | reportingInvalid _ _
  | reportingFailure _ _ => rfl
  | returned _ _ | failed => cases waits
  | idle | done | reading _ _ | querying _ _ | awaitingUsage _ | fillingTitle _ _
  | fillingEmail _ _ | forceReading _ | forceWaiting _ _ | forceRefreshing _ _ | adding _
  | addRefreshing _ | addChoosing _ _ | addPushing _ _ => exact sound.elim

/-- The ids and the credentials, which is all that a match with the file looks at. -/
def holdings (m : MultiTokenManager) : List (Nat × KiroCredentials) :=
  m.entries.map fun e => (e.id, e.credentials)

theorem find_holdings (m : MultiTokenManager) (id : Nat) :
    (m.find id).map (·.credentials) = ((holdings m).find? (·.1 == id)).map (·.2) := by
  unfold MultiTokenManager.find holdings
  rw [List.find?_map, Option.map_map]
  rfl

theorem length_of_holdings {m' : MultiTokenManager} (same : holdings m' = holdings m) :
    m'.entries.length = m.entries.length := by
  have lengths := congrArg List.length same
  unfold holdings at lengths
  rwa [List.length_map, List.length_map] at lengths

theorem reloadMatch_congr {m' : MultiTokenManager} (id : Nat)
    (file : Option (List KiroCredentials))
    (same : (m'.find id).map (·.credentials) = (m.find id).map (·.credentials))
    (count : m'.entries.length = m.entries.length) :
    reloadMatch m' id file = reloadMatch m id file := by
  unfold reloadMatch
  cases file with
  | none => rfl
  | some creds =>
    cases found : m.find id with
    | none =>
      cases found' : m'.find id with
      | none => rfl
      | some e' =>
        rw [found, found'] at same
        cases same
    | some e =>
      cases found' : m'.find id with
      | none =>
        rw [found, found'] at same
        cases same
      | some e' =>
        rw [found, found'] at same
        have credentials : e'.credentials = e.credentials := Option.some.inj same
        dsimp only
        rw [credentials, count]

theorem reloadMatch_of_holdings {m' : MultiTokenManager} (same : holdings m' = holdings m)
    (id : Nat) (file : Option (List KiroCredentials)) :
    reloadMatch m' id file = reloadMatch m id file := by
  refine reloadMatch_congr id file ?_ (length_of_holdings same)
  rw [find_holdings, find_holdings, same]

def adopt (found : KiroCredentials) (e : CredentialEntry) : CredentialEntry :=
  { e with
    credentials := { e.credentials with
      refreshToken := found.refreshToken
      accessToken := found.accessToken
      expiresAt := found.expiresAt }
    disabled := false
    disabledReason := none
    refreshFailureCount := 0
    failureCount := 0 }

theorem length_update (m : MultiTokenManager) (id : Nat) {f : CredentialEntry → CredentialEntry}
    (keeps : ∀ e, (f e).id = e.id) : (m.update id f).entries.length = m.entries.length := by
  have same : ids (m.update id f) = ids m := ids_update keeps
  have lengths := congrArg List.length same
  unfold ids at lengths
  rwa [List.length_map, List.length_map] at lengths

theorem reloadMatch_adopted {found : KiroCredentials} {file : Option (List KiroCredentials)}
    (news : reloadMatch m id file = some found) :
    reloadMatch (m.update id (adopt found)) id file = none := by
  unfold reloadMatch at news ⊢
  have after : (m.update id (adopt found)).find id = (m.find id).map (adopt found) := by
    rw [find_update (f := adopt found) fun _ => rfl, if_pos rfl]
  have count := length_update m id (f := adopt found) fun _ => rfl
  cases file with
  | none => cases news
  | some creds =>
    cases there : m.find id with
    | none =>
      rw [there] at news
      cases news
    | some e =>
      rw [there] at news after
      rw [after]
      dsimp only [Option.map_some] at news ⊢
      rw [count]
      have same : (fun c : KiroCredentials =>
          c.id.isSome && c.id == (adopt found e).credentials.id ||
          c.email.isSome && c.email == (adopt found e).credentials.email) = fun c =>
          c.id.isSome && c.id == e.credentials.id ||
            c.email.isSome && c.email == e.credentials.email := rfl
      rw [same]
      obtain ⟨matched, -⟩ := Option.filter_eq_some_iff.mp news
      rw [matched, Option.filter_some, if_neg]
      show ¬ (found.refreshToken.isSome && found.refreshToken != found.refreshToken) = true
      rw [bne_self_eq_false, Bool.and_false]
      exact Bool.false_ne_true

theorem reloadMatch_other {f : CredentialEntry → CredentialEntry} {other : Nat}
    (keeps : ∀ e, (f e).id = e.id) (ne : other ≠ id) (file : Option (List KiroCredentials)) :
    reloadMatch (m.update id f) other file = reloadMatch m other file := by
  refine reloadMatch_congr other file ?_ (length_update m id keeps)
  rw [find_update keeps, if_neg ne]

def reloadable (file : Option (List KiroCredentials)) (m : MultiTokenManager) : Nat :=
  (ids m).countP fun i => (reloadMatch m i file).isSome

theorem ids_of_holdings {m' : MultiTokenManager} (same : holdings m' = holdings m) :
    ids m' = ids m := by
  have firsts := congrArg (List.map Prod.fst) same
  unfold holdings at firsts
  rwa [List.map_map, List.map_map] at firsts

theorem reloadable_of_holdings {m' : MultiTokenManager} (same : holdings m' = holdings m)
    (file : Option (List KiroCredentials)) : reloadable file m' = reloadable file m := by
  unfold reloadable
  rw [ids_of_holdings same]
  simp only [reloadMatch_of_holdings same]

theorem reloadable_le (file : Option (List KiroCredentials)) (m : MultiTokenManager) :
    reloadable file m ≤ m.entries.length := by
  unfold reloadable
  refine Nat.le_trans List.countP_le_length ?_
  unfold ids
  rw [List.length_map]

theorem countP_lt {α : Type} {p q : α → Bool} {l : List α} {x : α} (mem : x ∈ l)
    (stronger : ∀ y ∈ l, q y = true → p y = true) (passes : p x = true) (fails : q x = false) :
    l.countP q < l.countP p := by
  induction l with
  | nil => cases mem
  | cons y l ih =>
    have weaker : l.countP q ≤ l.countP p :=
      List.countP_mono_left fun z later => stronger z (List.mem_cons_of_mem _ later)
    rcases List.mem_cons.mp mem with rfl | later
    · rw [List.countP_cons_of_pos passes, List.countP_cons_of_neg (by rw [fails]; simp)]
      omega
    · have below := ih later fun z mem => stronger z (List.mem_cons_of_mem _ mem)
      have here := stronger y List.mem_cons_self
      rw [List.countP_cons, List.countP_cons]
      split_ifs with first second
      · omega
      · exact absurd (here first) second
      · omega
      · omega

theorem reloadable_adopted {found : KiroCredentials} {file : Option (List KiroCredentials)}
    (news : reloadMatch m id file = some found) :
    reloadable file (m.update id (adopt found)) < reloadable file m := by
  have gone := reloadMatch_adopted news
  have there : id ∈ ids m := by
    unfold reloadMatch at news
    cases file with
    | none => cases news
    | some creds =>
      cases found' : m.find id with
      | none =>
        rw [found'] at news
        cases news
      | some e =>
        have key : e.id = id := by simpa using List.find?_some found'
        rw [← key]
        exact List.mem_map_of_mem (List.mem_of_find?_eq_some found')
  have kept : ids (m.update id (adopt found)) = ids m := ids_update fun _ => rfl
  unfold reloadable
  rw [kept]
  refine countP_lt there ?_ ?_ ?_
  · intro i _ news'
    by_cases same : i = id
    · rw [same, gone] at news'
      cases news'
    · have other : reloadMatch (m.update id (adopt found)) i file = reloadMatch m i file :=
        reloadMatch_other (f := adopt found) (fun _ => rfl) same file
      rwa [other] at news'
  · rw [news]
    rfl
  · rw [gone]
    rfl

theorem holdings_update {f : CredentialEntry → CredentialEntry}
    (keeps : ∀ e, ((f e).id, (f e).credentials) = (e.id, e.credentials)) :
    holdings (m.update id f) = holdings m := by
  unfold holdings MultiTokenManager.update
  dsimp only
  induction m.entries with
  | nil => rfl
  | cons e es ih =>
    unfold updateFirst
    split_ifs
    · rw [List.map_cons, List.map_cons, keeps]
    · rw [List.map_cons, List.map_cons, ih]

theorem holdings_switchToBest (m : MultiTokenManager) : holdings m.switchToBest = holdings m := by
  unfold MultiTokenManager.switchToBest
  split <;> rfl

theorem holdings_heal (m : MultiTokenManager) : holdings m.heal = holdings m := by
  unfold holdings MultiTokenManager.heal
  rw [List.map_map]
  refine List.map_congr_left fun e _ => ?_
  dsimp only [Function.comp_apply]
  split_ifs <;> rfl

theorem holdings_onEnabled {report : CredentialEntry → MultiTokenManager × Bool}
    (kept : ∀ e, holdings (report e).1 = holdings m) :
    holdings (m.onEnabled id report).1 = holdings m := by
  unfold MultiTokenManager.onEnabled
  split
  · rfl
  · split_ifs
    · rfl
    · exact kept _

theorem holdings_reportInvalid (m : MultiTokenManager) (id : Nat) (stamp : String) :
    holdings (m.reportRefreshTokenInvalid id stamp).1 = holdings m := by
  unfold MultiTokenManager.reportRefreshTokenInvalid
  refine holdings_onEnabled fun e => ?_
  dsimp only
  rw [holdings_switchToBest]
  exact holdings_update fun _ => rfl

theorem holdings_reportFailure (m : MultiTokenManager) (id : Nat) (stamp : String) :
    holdings (m.reportRefreshFailure id stamp).1 = holdings m := by
  unfold MultiTokenManager.reportRefreshFailure
  refine holdings_onEnabled fun e => ?_
  dsimp only
  split_ifs
  · exact holdings_update fun _ => rfl
  · rw [holdings_switchToBest]
    exact holdings_update fun _ => rfl

theorem withAccessToken_refreshed {c new : KiroCredentials} {answer : Except RefreshError
    RefreshResponse} (refreshed : refreshToken c answer = .ok new) (a : Attempt) (id : Nat) :
    ∃ token, withAccessToken (.acquire a) id new = .profile a id new token := by
  obtain ⟨data, -, rfl⟩ := refreshToken_ok refreshed
  exact ⟨data.accessToken, rfl⟩

/-- Out of the loop no attempt is left. -/
def Settled (task : Task) : Prop := ∀ r, tokensLeft r task = 0

/-- Within the loop only the file changes credentials. -/
theorem holdings_step (sound : Sound t lock task)
    (taken : stepTask env t input m lock task = some next) :
    Settled next.task ∨ holdings next.manager = holdings m ∨
      ∃ a id found, task = .reloading a id found ∧ next.manager = m.update id (adopt found) := by
  cases task with
  | loopHead a =>
    simp only [stepTask] at taken
    split_ifs at taken <;> cases taken <;> exact .inr (.inl rfl)
  | stickyCheck a | selecting a | reselecting a | recovering a id =>
    simp only [stepTask] at taken
    split at taken <;> cases taken <;> exact .inr (.inl rfl)
  | healing a =>
    simp only [stepTask] at taken
    split_ifs at taken
    · cases taken
      exact .inr (.inl (holdings_heal m))
    · cases taken
      exact .inr (.inl rfl)
  | lockWait purpose id =>
    simp only [stepTask] at taken
    split_ifs at taken
    cases taken
    exact .inr (.inl rfl)
  | rereading purpose id =>
    simp only [stepTask] at taken
    split at taken
    · cases taken
      exact .inr (.inl rfl)
    · split_ifs at taken <;> cases taken <;> exact .inr (.inl rfl)
  | refreshing purpose id snapshot =>
    cases purpose with
    | acquire a =>
      simp only [stepTask] at taken
      cases answer : refreshToken snapshot input.refresh with
      | error e =>
        rw [answer] at taken
        cases taken
        exact .inr (.inl rfl)
      | ok new =>
        rw [answer] at taken
        dsimp only at taken
        split_ifs at taken
        · cases taken
          exact .inr (.inl rfl)
        · obtain ⟨token, eq⟩ := withAccessToken_refreshed answer a id
          rw [eq] at taken
          cases taken
          exact .inl fun r => rfl
    | usage | models | preference => exact sound.elim
  | profile a id c token =>
    simp only [stepTask] at taken
    split_ifs at taken <;> cases taken <;> exact .inl fun r => rfl
  | fetchingProfile a id c token | settingProfile a id c token arn =>
    simp only [stepTask] at taken
    split at taken <;> cases taken <;> exact .inl fun r => rfl
  | fallbackProfile a id c token =>
    simp only [stepTask] at taken
    split at taken
    · cases taken
      exact .inl fun r => rfl
    · split_ifs at taken <;> cases taken <;> exact .inl fun r => rfl
  | finishing a id c token =>
    cases taken
    exact .inl fun r => rfl
  | switching a id c | token purpose id c =>
    cases taken
    exact .inr (.inl rfl)
  | reloading a id found =>
    cases taken
    exact .inr (.inr ⟨a, id, found, rfl, rfl⟩)
  | reportingInvalid a id =>
    cases taken
    exact .inr (.inl (holdings_reportInvalid m id input.stamp))
  | reportingFailure a id =>
    cases taken
    exact .inr (.inl (holdings_reportFailure m id input.stamp))
  | returned model context | failed => cases taken
  | idle | done | reading _ _ | querying _ _ | awaitingUsage _ | fillingTitle _ _
  | fillingEmail _ _ | forceReading _ | forceWaiting _ _ | forceRefreshing _ _ | adding _
  | addRefreshing _ | addChoosing _ _ | addPushing _ _ => exact sound.elim

theorem tokenFailed_ne_reloading (purpose : Purpose) (id : Nat) (e : RefreshError) (a : Attempt)
    (id' : Nat) (found : KiroCredentials) :
    tokenFailed purpose id e ≠ .reloading a id' found := by
  cases purpose <;> cases e <;> exact fun never => nomatch never

theorem withAccessToken_ne_reloading (purpose : Purpose) (id : Nat) (c : KiroCredentials)
    (a : Attempt) (id' : Nat) (found : KiroCredentials) :
    withAccessToken purpose id c ≠ .reloading a id' found := by
  unfold withAccessToken
  split
  · exact tokenFailed_ne_reloading _ _ _ _ _ _
  · split <;> exact fun never => nomatch never

theorem tokenTask_ne_reloading (env : Env) (utcNow : Int) (purpose : Purpose) (id : Nat)
    (c : KiroCredentials) (a : Attempt) (id' : Nat) (found : KiroCredentials) :
    tokenTask env utcNow purpose id c ≠ .reloading a id' found := by
  unfold tokenTask
  split_ifs
  · split
    · exact tokenFailed_ne_reloading _ _ _ _ _ _
    · split <;> exact fun never => nomatch never
  · exact fun never => nomatch never
  · exact withAccessToken_ne_reloading _ _ _ _ _ _

theorem reloading_of_step {found : KiroCredentials}
    (taken : stepTask env t input m lock task = some next)
    (loads : next.task = .reloading a id found) :
    next.manager = m ∧ reloadMatch m id input.file = some found := by
  cases task <;> simp only [stepTask] at taken
  case recovering a' id' =>
    split at taken
    · next found' news =>
      cases taken
      cases loads
      exact ⟨rfl, news⟩
    · cases taken
      cases loads
  all_goals (repeat' split at taken) <;> cases taken <;> dsimp only at loads <;>
    first
    | cases loads
    | exact absurd loads (tokenFailed_ne_reloading _ _ _ _ _ _)
    | exact absurd loads (withAccessToken_ne_reloading _ _ _ _ _ _)
    | exact absurd loads (tokenTask_ne_reloading _ _ _ _ _ _ _ _)

end KiroRs.Pool.Acquire
