/- Path: KiroRs/Pool/Rotation
   source: src/kiro/token_manager.rs
   digest: Refresh tokens that each refresh uses up: when no refresh sends one a second time, and
   the pool holds the latest. -/

import KiroRs.Pool.Invariants

set_option autoImplicit false
set_option relaxedAutoImplicit false

namespace KiroRs.Pool.Rotation

open KiroRs.Lib.Traces
open KiroRs.Pool.Credentials
open KiroRs.Pool.Manager
open KiroRs.Pool.Manager.MultiTokenManager
open KiroRs.Pool.Tasks
open KiroRs.Pool.Selection (plainEnv)
open KiroRs.Pool.RefreshInterleaving
open KiroRs.Pool.Changes
open KiroRs.Pool.Invariants

/-- The refresh token that the pool holds for an id. -/
def storedToken (m : MultiTokenManager) (id : Nat) : Option String :=
  (credentialsOf m id).bind (·.refreshToken)

/-- The credentials that the step asks the token endpoint with. -/
def sent (s : System) : Action → Nat → Option KiroCredentials
  | .task t _, id =>
      match s.tasks t with
      | .refreshing _ i c | .forceRefreshing i c => if i = id then some c else none
      | _ => none
  | _, _ => none

def completed (s : System) (a : Action) (id : Nat) : Option (KiroCredentials × KiroCredentials) :=
  match a with
  | .task _ input =>
      (sent s a id).bind fun c => (refreshToken c input.refresh).toOption.map fun new => (c, new)
  | _ => none

/-- The token that the step puts in the place of the stored one, other than by a refresh: an
administrator's, or the one of the credentials file. -/
def installed (env : Env) (s : System) : Action → Nat → Option (Option String)
  | .task t _, id =>
      match s.tasks t with
      | .reloading _ i found =>
          if i = id ∧ (s.manager.find i).isSome then some found.refreshToken else none
      | _ => none
  | .operation (.updateRefreshToken i token access expires), id =>
      if i = id ∧ (s.manager.updateRefreshToken env i token access expires).isOk then
        some (some token)
      else none
  | _, _ => none

def consumed (id : Nat) : List (System × Action) → List String
  | [] => []
  | (s, a) :: earlier =>
      match completed s a id with
      | some (c, _) => c.refreshToken.toList ++ consumed id earlier
      | none => consumed id earlier

/-- The refresh token of the credential that was issued or installed last. -/
def latest (env : Env) (m : MultiTokenManager) (id : Nat) : List (System × Action) → Option String
  | [] => storedToken m id
  | (s, a) :: earlier =>
      match completed s a id with
      | some (_, new) => new.refreshToken
      | none => (installed env s a id).getD (latest env m id earlier)

/-- No refresh of the credential sends a token that an earlier one used up. -/
def NoneStale (id : Nat) : List (System × Action) → Prop
  | [] => True
  | (s, a) :: earlier => NoneStale id earlier ∧
      ∀ c ∈ sent s a id, ∀ token ∈ c.refreshToken, token ∉ consumed id earlier

instance decidableNoneStale (id : Nat) :
    (trace : List (System × Action)) → Decidable (NoneStale id trace)
  | [] => isTrue trivial
  | (s, a) :: earlier =>
      have := decidableNoneStale id earlier
      inferInstanceAs (Decidable (NoneStale id earlier ∧
        ∀ c ∈ sent s a id, ∀ token ∈ c.refreshToken, token ∉ consumed id earlier))

/-- The token endpoint takes back the token it is sent, and returns one it has not taken back. -/
def Rotates (id : Nat) : List (System × Action) → Prop
  | [] => True
  | (s, a) :: earlier => Rotates id earlier ∧
      ∀ p ∈ completed s a id, ∀ token ∈ p.2.refreshToken, token ∉ consumed id ((s, a) :: earlier)

instance decidableRotates (id : Nat) :
    (trace : List (System × Action)) → Decidable (Rotates id trace)
  | [] => isTrue trivial
  | (s, a) :: earlier =>
      have := decidableRotates id earlier
      inferInstanceAs (Decidable (Rotates id earlier ∧ ∀ p ∈ completed s a id,
        ∀ token ∈ p.2.refreshToken, token ∉ consumed id ((s, a) :: earlier)))

/-- The credential is neither deleted nor added. -/
def Stays (id : Nat) (s : System) (a : Action) : Prop :=
  a ≠ .operation (.deleteEntry id) ∧
    ∀ t input c, a = .task t input → s.tasks t ≠ .addPushing id c

/-- The stored token is replaced only while no other task holds a copy of the credential, every
refreshed token is usable, and no token is installed that was used up. -/
structure Ordered (env : Env) (id : Nat) (earlier : List (System × Action)) (s : System)
    (a : Action) : Prop where
  alone : (completed s a id).isSome = true ∨ (installed env s a id).isSome = true →
    ∀ t c, snapshotOf (s.tasks t) = some (id, c) → ∃ input, a = .task t input
  usable : ∀ t input attempt c new, a = .task t input →
    s.tasks t = .refreshing (.acquire attempt) id c → refreshToken c input.refresh = .ok new →
    isTokenExpired env input.utcNow new = false
  installs : ∀ token, installed env s a id = some (some token) → token ∉ consumed id earlier

def AllOrdered (env : Env) (id : Nat) : List (System × Action) → Prop
  | [] => True
  | (s, a) :: earlier => AllOrdered env id earlier ∧ Ordered env id earlier s a

variable {env : Env} {s s' : System} {a : Action} {id : Nat}

theorem find_of_changes {es es' : List CredentialEntry}
    (changes : List.Forall₂ (Change env s a) es es') :
    es.find? (·.id == id) = none ∧ es'.find? (·.id == id) = none ∨
      ∃ e e', es.find? (·.id == id) = some e ∧ es'.find? (·.id == id) = some e' ∧
        Change env s a e e' := by
  induction changes with
  | nil => exact .inl ⟨rfl, rfl⟩
  | @cons e e' es es' change _ ih =>
    by_cases here : (e.id == id) = true
    · have there : (e'.id == id) = true := by
        rw [change.id_eq]
        exact here
      exact .inr ⟨e, e', List.find?_cons_of_pos here, List.find?_cons_of_pos there, change⟩
    · have there : ¬ (e'.id == id) = true := by
        rw [change.id_eq]
        exact here
      have skip : (e :: es).find? (·.id == id) = es.find? (·.id == id) :=
        List.find?_cons_of_neg here
      have skip' : (e' :: es').find? (·.id == id) = es'.find? (·.id == id) :=
        List.find?_cons_of_neg there
      rw [skip, skip']
      exact ih

theorem find_step (step : s.step env a = some s') (stays : Stays id s a) :
    s.manager.find id = none ∧ s'.manager.find id = none ∨
      ∃ e e', s.manager.find id = some e ∧ s'.manager.find id = some e' ∧ Change env s a e e' := by
  unfold find
  rcases entries_step step with changes | ⟨i, e, rfl, -, -, left⟩ |
    ⟨t, input, i, c, rfl, stands, new⟩
  · exact find_of_changes changes
  · have other : i ≠ id := fun eq => stays.1 (by rw [eq])
    have same : s'.manager.entries.find? (·.id == id) = s.manager.entries.find? (·.id == id) := by
      rw [left, List.find?_filter]
      congr 1
      funext e
      by_cases here : (e.id == id) = true
      · rw [beq_iff_eq.mp here]
        simp [Ne.symm other]
      · simp [Bool.eq_false_iff.mpr here]
    rw [same]
    cases found : s.manager.entries.find? (·.id == id) with
    | none => exact .inl ⟨rfl, rfl⟩
    | some e => exact .inr ⟨e, e, rfl, rfl, .same e⟩
  · have other : i ≠ id := by
      rintro rfl
      exact stays.2 t input c rfl stands
    rw [new, List.find?_append]
    cases found : s.manager.entries.find? (·.id == id) with
    | none =>
      refine .inl ⟨rfl, ?_⟩
      simp [other]
    | some e => exact .inr ⟨e, e, rfl, rfl, .same e⟩

theorem storedToken_of_find {m : MultiTokenManager} {e : CredentialEntry}
    (found : m.find id = some e) : storedToken m id = e.credentials.refreshToken := by
  unfold storedToken credentialsOf
  rw [found]
  rfl

theorem storedToken_of_none {m : MultiTokenManager} (gone : m.find id = none) :
    storedToken m id = none := by
  unfold storedToken credentialsOf
  rw [gone]
  rfl

theorem present_step (step : s.step env a = some s') (stays : Stays id s a)
    (present : (s.manager.find id).isSome = true) : (s'.manager.find id).isSome = true := by
  rcases find_step step stays with ⟨gone, -⟩ | ⟨e, e', -, found, -⟩
  · rw [gone] at present
    cases present
  · rw [found]
    rfl

theorem sent_refreshing {t : Nat} {input : Input} {purpose : Purpose} {c : KiroCredentials}
    (stands : s.tasks t = .refreshing purpose id c) : sent s (.task t input) id = some c := by
  rw [sent, stands]
  exact if_pos rfl

theorem sent_forceRefreshing {t : Nat} {input : Input} {c : KiroCredentials}
    (stands : s.tasks t = .forceRefreshing id c) : sent s (.task t input) id = some c := by
  rw [sent, stands]
  exact if_pos rfl

theorem completed_of_sent {t : Nat} {input : Input} {c new : KiroCredentials}
    (sends : sent s (.task t input) id = some c) (answer : refreshToken c input.refresh = .ok new) :
    completed s (.task t input) id = some (c, new) := by
  rw [completed, sends, Option.bind_some, answer]
  rfl

theorem storedToken_kept (step : s.step env a = some s') (stays : Stays id s a)
    (incomplete : completed s a id = none) (uninstalled : installed env s a id = none) :
    storedToken s'.manager id = storedToken s.manager id := by
  rcases find_step step stays with ⟨gone, gone'⟩ | ⟨e, e', found, found', change⟩
  · rw [storedToken_of_none gone, storedToken_of_none gone']
  · have here : e.id = id := by simpa using List.find?_some found
    subst here
    rw [storedToken_of_find found, storedToken_of_find found']
    cases change with
    | edited c cause identity => exact identity.refreshToken
    | retokened token access expires cause accepted disabled =>
      subst cause
      rw [installed, if_pos ⟨rfl, accepted⟩] at uninstalled
      cases uninstalled
    | written t input purpose snapshot new cause stands answer =>
      subst cause
      rw [completed_of_sent (sent_refreshing stands) answer] at incomplete
      cases incomplete
    | forced t input snapshot new cause stands answer =>
      subst cause
      rw [completed_of_sent (sent_forceRefreshing stands) answer] at incomplete
      cases incomplete
    | reloaded t input attempt file cause stands =>
      subst cause
      rw [installed, stands] at uninstalled
      dsimp only at uninstalled
      rw [if_pos ⟨rfl, by rw [found]; rfl⟩] at uninstalled
      cases uninstalled
    | _ => rfl

theorem sent_cases {c : KiroCredentials} (sends : sent s a id = some c) :
    ∃ t input, a = .task t input ∧ ((∃ purpose, s.tasks t = .refreshing purpose id c) ∨
      s.tasks t = .forceRefreshing id c) := by
  cases a with
  | task t input =>
    rw [sent] at sends
    split at sends
    · rename_i purpose i c' stands
      split_ifs at sends with here
      cases sends
      exact ⟨t, input, rfl, .inl ⟨purpose, by rw [stands, here]⟩⟩
    · rename_i i c' stands
      split_ifs at sends with here
      cases sends
      exact ⟨t, input, rfl, .inr (by rw [stands, here])⟩
    · cases sends
  | start t call | drop t | operation op => cases sends

theorem snapshot_of_sent {c : KiroCredentials} (sends : sent s a id = some c) :
    ∃ t, snapshotOf (s.tasks t) = some (id, c) := by
  obtain ⟨t, input, -, ⟨purpose, stands⟩ | stands⟩ := sent_cases sends
  · exact ⟨t, by rw [stands]; rfl⟩
  · exact ⟨t, by rw [stands]; rfl⟩

theorem completed_cases {c new : KiroCredentials} (done : completed s a id = some (c, new)) :
    sent s a id = some c ∧ ∃ t input, a = .task t input ∧
      refreshToken c input.refresh = .ok new := by
  cases a with
  | task t input =>
    obtain ⟨c', sends, answered⟩ := Option.bind_eq_some_iff.mp done
    obtain ⟨new', accepted, eq⟩ := Option.map_eq_some_iff.mp answered
    cases eq
    refine ⟨sends, t, input, rfl, ?_⟩
    cases answer : refreshToken c input.refresh with
    | error e =>
      rw [answer] at accepted
      cases accepted
    | ok n =>
      rw [answer] at accepted
      cases accepted
      rfl
  | start t call | drop t | operation op => cases done

theorem storedToken_completed {earlier : List (System × Action)} {c new : KiroCredentials}
    (step : s.step env a = some s') (done : completed s a id = some (c, new))
    (ordered : Ordered env id earlier s a) (present : (s.manager.find id).isSome = true) :
    storedToken s'.manager id = new.refreshToken := by
  obtain ⟨sends, t, input, rfl, answer⟩ := completed_cases done
  obtain ⟨data, given, rfl⟩ := refreshToken_ok answer
  have writes : WritesBack env s (.task t input) id c data := by
    obtain ⟨t', input', cause, ⟨purpose, stands⟩ | stands⟩ := sent_cases sends
    · cases cause
      refine .prepared t input purpose id c data stands given answer fun requested => ?_
      cases purpose with
      | acquire attempt => exact ordered.usable t input attempt c _ rfl stands answer
      | usage | models | preference => cases requested
    · cases cause
      exact .forced t input id c data stands given answer
  obtain ⟨e, found⟩ := Option.isSome_iff_exists.mp present
  unfold storedToken
  rw [(credentialsOf_writesBack writes step).1, credentialsOf, found]
  rfl

theorem storedToken_update {m : MultiTokenManager} {f : CredentialEntry → CredentialEntry}
    {token : Option String} (keeps : ∀ e, (f e).id = e.id)
    (becomes : ∀ e, (f e).credentials.refreshToken = token) (present : (m.find id).isSome = true) :
    storedToken (m.update id f) id = token := by
  obtain ⟨e, found⟩ := Option.isSome_iff_exists.mp present
  have after : (m.update id f).find id = some (f e) := by
    rw [find_update keeps, if_pos rfl, found]
    rfl
  rw [storedToken_of_find after]
  exact becomes e

theorem updateRefreshToken_ok {m m' : MultiTokenManager} {token : String}
    {access expires : Option String}
    (accepted : m.updateRefreshToken env id token access expires = .ok m') :
    (m.find id).isSome = true ∧ storedToken m' id = some token := by
  unfold updateRefreshToken at accepted
  split at accepted
  · cases accepted
  · rename_i index position
    have present : (m.find id).isSome = true := by
      unfold find
      rw [List.find?_isSome]
      obtain ⟨listed, here, -⟩ := List.findIdx?_eq_some_iff_getElem.mp position
      exact ⟨_, List.getElem_mem listed, here⟩
    refine ⟨present, ?_⟩
    split at accepted
    · cases accepted
    · split_ifs at accepted
      split at accepted
      · cases accepted
      · dsimp only at accepted
        split_ifs at accepted
        cases accepted
        refine storedToken_update ?_ ?_ present
        · intro e
          rfl
        · intro e
          rfl

theorem storedToken_installed {token : Option String} (step : s.step env a = some s')
    (installs : installed env s a id = some token) : storedToken s'.manager id = token := by
  cases a with
  | task t input =>
    rw [installed] at installs
    split at installs
    · rename_i attempt i file stands
      split_ifs at installs with here
      obtain ⟨rfl, present⟩ := here
      cases installs
      obtain ⟨next, taken, rfl⟩ := Option.map_eq_some_iff.mp step
      rw [stands] at taken
      cases taken
      refine storedToken_update ?_ ?_ present
      · intro e
        rfl
      · intro e
        rfl
    · cases installs
  | operation op =>
    cases step
    cases op with
    | updateRefreshToken i new access expires =>
      rw [installed] at installs
      split_ifs at installs with here
      obtain ⟨rfl, accepted⟩ := here
      cases installs
      show storedToken (settle s.manager
        (s.manager.updateRefreshToken env i new access expires)) i = some new
      cases result : s.manager.updateRefreshToken env i new access expires with
      | error e =>
        rw [result] at accepted
        cases accepted
      | ok m' => exact (updateRefreshToken_ok result).2
    | _ => cases installs
  | start t call | drop t => cases installs

/-- The stored token is the latest one, it is not used up, and every copy that a task holds has
it. -/
structure Current (env : Env) (m : MultiTokenManager) (id : Nat) (trace : List (System × Action))
    (s : System) : Prop where
  stored : storedToken s.manager id = latest env m id trace
  copies : ∀ t c, snapshotOf (s.tasks t) = some (id, c) →
    (s.manager.find id).isSome = true ∧ c.refreshToken = storedToken s.manager id
  unconsumed : ∀ token, storedToken s.manager id = some token → token ∉ consumed id trace

variable {m : MultiTokenManager} {trace : List (System × Action)}

theorem Current.copies_own (current : Current env m id trace s) {t : Nat} {input : Input}
    (step : s.step env (.task t input) = some s') {c : KiroCredentials}
    (holds : snapshotOf (s'.tasks t) = some (id, c)) :
    (s'.manager.find id).isSome = true ∧ c.refreshToken = storedToken s'.manager id := by
  obtain ⟨next, taken, rfl⟩ := Option.map_eq_some_iff.mp step
  dsimp only at holds ⊢
  rw [Function.update_self] at holds
  obtain ⟨same, before | copied⟩ := snapshotOf_stepTask taken holds
  · rw [same]
    exact current.copies t c before
  · rw [same]
    obtain ⟨e, found, rfl⟩ := Option.map_eq_some_iff.mp copied
    rw [storedToken_of_find found, found]
    exact ⟨rfl, rfl⟩

theorem Current.copies_step (current : Current env m id trace s)
    (ordered : Ordered env id trace s a) (step : s.step env a = some s') (stays : Stays id s a)
    (t : Nat) (c : KiroCredentials) (holds : snapshotOf (s'.tasks t) = some (id, c)) :
    (s'.manager.find id).isSome = true ∧ c.refreshToken = storedToken s'.manager id := by
  rcases task_step step t with same | ⟨call, -, started⟩ | ⟨input, next, rfl, -⟩ | ⟨-, dropped⟩
  · have before : snapshotOf (s.tasks t) = some (id, c) := by
      rw [← same]
      exact holds
    by_cases replaced : (completed s a id).isSome = true ∨ (installed env s a id).isSome = true
    · obtain ⟨input, rfl⟩ := ordered.alone replaced t c before
      exact current.copies_own step holds
    · obtain ⟨incomplete, uninstalled⟩ := not_or.mp replaced
      rw [Bool.not_eq_true, Option.isSome_eq_false_iff, Option.isNone_iff_eq_none] at incomplete
      rw [Bool.not_eq_true, Option.isSome_eq_false_iff, Option.isNone_iff_eq_none] at uninstalled
      obtain ⟨present, token⟩ := current.copies t c before
      refine ⟨present_step step stays present, ?_⟩
      rw [storedToken_kept step stays incomplete uninstalled]
      exact token
  · rw [started, snapshotOf_call] at holds
    cases holds
  · exact current.copies_own step holds
  · rw [dropped] at holds
    cases holds

theorem consumed_completed {c new : KiroCredentials} (done : completed s a id = some (c, new)) :
    consumed id ((s, a) :: trace) = c.refreshToken.toList ++ consumed id trace := by
  rw [consumed, done]

theorem consumed_kept (incomplete : completed s a id = none) :
    consumed id ((s, a) :: trace) = consumed id trace := by
  rw [consumed, incomplete]

theorem Current.step (current : Current env m id trace s) (ordered : Ordered env id trace s a)
    (rotates : ∀ p ∈ completed s a id, ∀ token ∈ p.2.refreshToken,
      token ∉ consumed id ((s, a) :: trace))
    (step : s.step env a = some s') (stays : Stays id s a) :
    Current env m id ((s, a) :: trace) s' := by
  have copies := current.copies_step ordered step stays
  cases done : completed s a id with
  | some exchanged =>
    obtain ⟨c, new⟩ := exchanged
    obtain ⟨t, holds⟩ := snapshot_of_sent (completed_cases done).1
    have stored := storedToken_completed step done ordered (current.copies t c holds).1
    refine ⟨?_, copies, ?_⟩
    · rw [stored, latest, done]
    · intro token held
      rw [stored] at held
      exact rotates (c, new) done token held
  | none =>
    cases install : installed env s a id with
    | some token =>
      have stored := storedToken_installed step install
      refine ⟨?_, copies, ?_⟩
      · rw [stored, latest, done, install]
        rfl
      · intro held eq
        rw [stored] at eq
        rw [consumed_kept done]
        rw [eq] at install
        exact ordered.installs held install
    | none =>
      have stored := storedToken_kept step stays done install
      refine ⟨?_, copies, ?_⟩
      · rw [stored, latest, done, install]
        exact current.stored
      · intro token held
        rw [stored] at held
        rw [consumed_kept done]
        exact current.unconsumed token held

/-- On a credential that is neither added nor deleted, over every run in which the token endpoint
rotates and every step meets the condition: no refresh sends a refresh token that an earlier one
used up, and the pool holds the token that was issued or installed last. -/
theorem refreshes_in_order (env : Env) (m : MultiTokenManager) (id : Nat)
    {trace : List (System × Action)} {s : System} (run : PoolRun env m trace s)
    (stays : Guarded (Stays id) trace) (rotates : Rotates id trace)
    (ordered : AllOrdered env id trace) :
    NoneStale id trace ∧ storedToken s.manager id = latest env m id trace := by
  have both : NoneStale id trace ∧ Current env m id trace s := by
    induction run with
    | nil =>
      refine ⟨trivial, rfl, fun t c none => (by cases none), fun token _ mem => ?_⟩
      cases mem
    | cons run taken ih =>
      obtain ⟨earlier, current⟩ := ih stays.tail rotates.1 ordered.1
      refine ⟨⟨earlier, fun c sends token held => ?_⟩,
        current.step ordered.2 rotates.2 taken stays.head⟩
      obtain ⟨t, holds⟩ := snapshot_of_sent sends
      have held : c.refreshToken = some token := held
      rw [(current.copies t c holds).2] at held
      exact current.unconsumed token held
  exact ⟨both.1, both.2.stored⟩

def staysQuiet (p : System × Action) : Bool :=
  match p.2 with
  | .task t _ => (pushOf (p.1.tasks t)).isNone
  | .operation (.deleteEntry _) => false
  | _ => true

theorem stays_of_quiet (quiet : staysQuiet (s, a) = true) : Stays id s a := by
  constructor
  · rintro rfl
    cases quiet
  · rintro t input c rfl pushing
    unfold staysQuiet at quiet
    dsimp only at quiet
    rw [pushing] at quiet
    cases quiet

def usableCheck (env : Env) (id : Nat) (p : System × Action) : Bool :=
  match p.2 with
  | .task t input =>
    match p.1.tasks t with
    | .refreshing (.acquire _) i c =>
      i != id || (refreshToken c input.refresh).toOption.all fun new =>
        !isTokenExpired env input.utcNow new
    | _ => true
  | _ => true

def orderedCheck (env : Env) (ts : List Nat) (id : Nat) (earlier : List (System × Action))
    (p : System × Action) : Bool :=
  (((completed p.1 p.2 id).isNone && (installed env p.1 p.2 id).isNone) || ts.all fun t =>
      (snapshotOf (p.1.tasks t)).all fun held => held.1 != id ||
        match p.2 with
        | .task t' _ => t' == t
        | _ => false) &&
    usableCheck env id p && (installed env p.1 p.2 id).all fun token =>
      token.all fun token => !(consumed id earlier).contains token

def allOrderedCheck (env : Env) (ts : List Nat) (id : Nat) : List (System × Action) → Bool
  | [] => true
  | p :: earlier => allOrderedCheck env ts id earlier && orderedCheck env ts id earlier p

theorem ordered_of_check {ts : List Nat} {earlier : List (System × Action)}
    (checked : orderedCheck env ts id earlier (s, a) = true)
    (idle : ∀ t, t ∉ ts → s.tasks t = .idle) : Ordered env id earlier s a := by
  simp only [orderedCheck, Bool.and_eq_true] at checked
  obtain ⟨⟨alone, usable⟩, installs⟩ := checked
  refine ⟨?_, ?_, ?_⟩
  · intro replaced t c holds
    have listed : t ∈ ts := by
      by_contra other
      rw [idle t other] at holds
      cases holds
    have several : ((completed s a id).isNone && (installed env s a id).isNone) = false := by
      rcases replaced with done | done
      · rw [Option.isNone_eq_false_iff.mpr done, Bool.false_and]
      · rw [Option.isNone_eq_false_iff.mpr done, Bool.and_false]
    rw [several, Bool.false_or] at alone
    have own := List.all_eq_true.mp alone t listed
    rw [holds, Option.all_some, bne_self_eq_false, Bool.false_or] at own
    cases a with
    | task t' input => exact ⟨input, by rw [beq_iff_eq.mp own]⟩
    | operation op | start t' call | drop t' => cases own
  · rintro t input attempt c new rfl stands answered
    simp only [usableCheck, stands, answered, bne_self_eq_false, Bool.false_or, Except.toOption,
      Option.all_some, Bool.not_eq_true'] at usable
    exact usable
  · intro token put
    rw [put, Option.all_some, Option.all_some, Bool.not_eq_true'] at installs
    intro mem
    rw [List.contains_iff_mem.mpr mem] at installs
    cases installs

theorem allOrdered_of_check {ts : List Nat} (run : PoolRun env m trace s)
    (checked : allOrderedCheck env ts id trace = true) (within : actsWithin ts trace = true) :
    AllOrdered env id trace := by
  induction run with
  | nil => trivial
  | @cons trace s s' a run taken ih =>
    obtain ⟨before, here⟩ := Bool.and_eq_true_iff.mp checked
    obtain ⟨-, earlier⟩ := Bool.and_eq_true_iff.mp within
    exact ⟨ih before earlier,
      ordered_of_check here fun t other => (idle_of_actsWithin run earlier other).1⟩

def tokenOf (c : Char) : String := String.ofList (List.replicate 100 c)

def rotated (token expires : String) : Input :=
  { refresh := .ok ⟨"access", some token, none, some expires⟩ }

def clockEnv : Env :=
  { plainEnv with
    parseFromRfc3339 := fun text => if text = "soon" then some (7 * utcMinute)
      else if text = "late" then some (1000 * utcMinute) else none }

/-- A request refreshes the token while a query waits for the lock, which reads the entry again and
refreshes once more. A forced refresh follows, then the administrator installs a token, and the
next request refreshes it. -/
def manyRefreshes : List Action :=
  [.start 0 (.acquireContext none), .start 1 (.getUsageLimitsFor 1), .task 0 {}, .task 0 {},
    .task 1 {}, .task 0 {}, .task 1 {}, .task 0 {}, .task 0 {},
    .task 0 (rotated (tokenOf 'b') "soon"), .task 1 {}, .task 1 {},
    .operation (.setPriority 1 3), .task 1 (rotated (tokenOf 'c') "late"),
    .start 2 (.forceRefreshTokenFor 1), .task 2 {}, .task 0 {}, .task 2 {},
    .task 2 (rotated (tokenOf 'd') "late"), .operation (.setDisabled 1 true),
    .operation (.updateRefreshToken 1 (tokenOf 'e') none none), .operation (.setDisabled 1 false),
    .start 3 (.acquireContext none), .task 3 {}, .task 3 {}, .task 3 {}, .task 3 {}, .task 3 {},
    .task 3 (rotated (tokenOf 'f') "late")]

theorem manyRefreshes_run :
    ((follow (System.step clockEnv) [] (System.initial single) manyRefreshes).any fun reached =>
      decide (Rotates 1 reached.1) && allOrderedCheck clockEnv [0, 1, 2, 3] 1 reached.1 &&
        actsWithin [0, 1, 2, 3] reached.1 && reached.1.all staysQuiet &&
        consumed 1 reached.1 == [tokenOf 'e', tokenOf 'c', tokenOf 'b', longToken] &&
        latest clockEnv single 1 reached.1 == some (tokenOf 'f')) = true := by
  decide +kernel

theorem refreshes_in_order_many : ∃ trace s, PoolRun clockEnv single trace s ∧
    consumed 1 trace = [tokenOf 'e', tokenOf 'c', tokenOf 'b', longToken] ∧ NoneStale 1 trace ∧
      storedToken s.manager 1 = some (tokenOf 'f') := by
  obtain ⟨trace, s, run, -, holds⟩ := exists_run_of_follow manyRefreshes_run
  simp only [Bool.and_eq_true, decide_eq_true_eq, List.all_eq_true, beq_iff_eq] at holds
  obtain ⟨⟨⟨⟨⟨rotates, checked⟩, within⟩, quiet⟩, used⟩, last⟩ := holds
  obtain ⟨fresh, stored⟩ := refreshes_in_order clockEnv single 1 run
    (fun p mem => stays_of_quiet (quiet p mem)) rotates (allOrdered_of_check run checked within)
  exact ⟨trace, s, run, used, fresh, stored.trans last⟩

def twoRefreshes : List Action :=
  [.start 0 (.forceRefreshTokenFor 1), .task 0 {}, .start 1 (.forceRefreshTokenFor 1), .task 1 {},
    .task 1 {}, .task 1 (rotated (tokenOf 'n') "late"), .task 0 {}, .task 0 {}]

theorem twoRefreshes_run :
    ((follow (System.step plainEnv) [] (System.initial single) twoRefreshes).any fun reached =>
      decide (Rotates 1 reached.1) && reached.1.all staysQuiet &&
        !decide (NoneStale 1 reached.1)) = true := by
  decide +kernel

/-- The first sends the token that the second used up. -/
theorem stale_token_sent : ¬ ∀ (env : Env) (m : MultiTokenManager) (id : Nat)
    (trace : List (System × Action)) (s : System), PoolRun env m trace s →
      Guarded (Stays id) trace → Rotates id trace →
      NoneStale id trace ∧ storedToken s.manager id = latest env m id trace := by
  intro claim
  obtain ⟨reached, followed, holds⟩ := (Option.any_eq_true _ _).mp twoRefreshes_run
  simp only [Bool.and_eq_true, decide_eq_true_eq, List.all_eq_true, Bool.not_eq_true',
    decide_eq_false_iff_not] at holds
  obtain ⟨⟨rotates, quiet⟩, stale⟩ := holds
  obtain ⟨run, -⟩ := follow_run .nil followed
  exact stale (claim plainEnv single 1 _ _ run (fun p mem => stays_of_quiet (quiet p mem))
    rotates).1

end KiroRs.Pool.Rotation
