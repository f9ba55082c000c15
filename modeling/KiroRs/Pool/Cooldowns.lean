/- Path: KiroRs/Pool/Cooldowns
   source: src/kiro/token_manager.rs
   digest: The two cooldowns of an entry: which operations start and end them, and when the entries
   counted behind a throttled account are those that may be selected. -/

import Mathlib.Data.List.Count
import KiroRs.Pool.Changes

set_option autoImplicit false
set_option relaxedAutoImplicit false

namespace KiroRs.Pool.Cooldowns

open KiroRs.Pool.Credentials
open KiroRs.Pool.Manager
open KiroRs.Pool.Manager.MultiTokenManager
open KiroRs.Pool.Selection (plainEnv coolingDown_eq_false eligible_of_selectNextCredential
  selectNextCredential_eq_none selectable_iff)
open KiroRs.Pool.Changes (forall₂_updateFirst)

def Prolongs (deadline deadline' : Option Nat) : Prop :=
  ∀ d, deadline = some d → ∃ d', deadline' = some d' ∧ d ≤ d'

structure OnlyProlongs (id : Nat) (e e' : CredentialEntry) : Prop where
  throttled : Prolongs e.throttledUntil e'.throttledUntil
  limited : Prolongs e.rateLimitedUntil e'.rateLimitedUntil
  others : e.id ≠ id →
    e'.throttledUntil = e.throttledUntil ∧ e'.rateLimitedUntil = e.rateLimitedUntil

def Rested (now : Nat) (e : CredentialEntry) : Prop :=
  coolingDown e.throttledUntil now = false ∧ coolingDown e.rateLimitedUntil now = false

def Selectable (env : Env) (now : Nat) (e : CredentialEntry) : Prop :=
  ∀ model, (isOpus env model = true → e.credentials.supportsOpus env = true) →
    e.selectable env now model = true

/-- The operations on cooldowns at an entry, at the clock `now`; `later` is the clock at which a
report counts what is left. -/
structure Recovery (env : Env) (m : MultiTokenManager) (id now later cooldown : Nat)
    (stamp : String) : Prop where
  throttling : List.Forall₂ (OnlyProlongs id) m.entries
    (m.reportAccountThrottled id now later cooldown).1.entries
  limiting : List.Forall₂ (OnlyProlongs id) m.entries
    (m.reportRateLimited id now later cooldown).1.entries
  succeeded : ∀ e, (m.reportSuccess id stamp).find id = some e → Rested now e
  cleared : ∀ m' e, m.clearThrottle id = .ok m' → m'.find id = some e → Rested now e
  enabled : ∀ m' e, m.setDisabled id false = .ok m' → m'.find id = some e →
    Rested now e ∧ Selectable env now e
  reset : ∀ m' e, m.resetAndEnable id = .ok m' → m'.find id = some e →
    Rested now e ∧ Selectable env now e
  counted : (m.reportAccountThrottled id now later cooldown).2 =
    ((m.reportAccountThrottled id now later cooldown).1.entries.filter
      (·.selectable env later none)).length

/-- An entry that `reset_and_enable` accepts is in no rate limit. -/
def ResetsFresh (m : MultiTokenManager) (id now : Nat) : Prop :=
  ∀ e, m.find id = some e → e.disabledReason ≠ some .invalidConfig →
    coolingDown e.rateLimitedUntil now = false

/-- When an entry cools down for its account, after the named one was throttled: `before` are the
entries in front of it. -/
def throttledThen (id until_ : Nat) (before : List CredentialEntry) (e : CredentialEntry) :
    Option Nat :=
  if e.id = id ∧ ∀ b ∈ before, b.id ≠ id then extend e.throttledUntil until_ else e.throttledUntil

/-- No enabled entry is in a rate limit only. -/
def CountsRight (m : MultiTokenManager) (id until_ later : Nat) : Prop :=
  ∀ before e after, m.entries = before ++ e :: after → e.disabled = false →
    coolingDown (throttledThen id until_ before e) later = false →
    coolingDown e.rateLimitedUntil later = false

variable {env : Env} {m : MultiTokenManager} {id now later cooldown : Nat}

theorem Prolongs.refl (deadline : Option Nat) : Prolongs deadline deadline :=
  fun d same => ⟨d, same, le_refl d⟩

theorem prolongs_extend (deadline : Option Nat) (until_ : Nat) :
    Prolongs deadline (extend deadline until_) := by
  rintro d rfl
  unfold extend
  dsimp only
  split_ifs with ahead
  · exact ⟨d, rfl, le_refl d⟩
  · exact ⟨until_, rfl, not_lt.mp ahead⟩

theorem OnlyProlongs.refl (e : CredentialEntry) : OnlyProlongs id e e :=
  ⟨.refl _, .refl _, fun _ => ⟨rfl, rfl⟩⟩

theorem onlyProlongs_update {f : CredentialEntry → CredentialEntry}
    (throttled : ∀ e, Prolongs e.throttledUntil (f e).throttledUntil)
    (limited : ∀ e, Prolongs e.rateLimitedUntil (f e).rateLimitedUntil) :
    List.Forall₂ (OnlyProlongs id) m.entries (m.update id f).entries :=
  forall₂_updateFirst .refl m.entries fun e found =>
    ⟨throttled e, limited e, fun other => absurd (id_of_find found) other⟩

theorem selects_among_selectable (model : Option String) :
    (∀ e, m.selectNextCredential env now model = some e →
      e ∈ m.entries ∧ e.selectable env now model = true) ∧
    (m.selectNextCredential env now model = none ↔
      ∀ e ∈ m.entries, e.selectable env now model = false) := by
  constructor
  · intro e found
    obtain ⟨mem, eligible⟩ := eligible_of_selectNextCredential found
    exact ⟨mem, selectable_iff.mpr eligible⟩
  · rw [selectNextCredential_eq_none]
    refine forall₂_congr fun e _ => ?_
    rw [← selectable_iff, Bool.not_eq_true]

theorem rested_of_none {e : CredentialEntry} (throttled : e.throttledUntil = none)
    (limited : e.rateLimitedUntil = none) : Rested now e := by
  unfold Rested
  rw [throttled, limited]
  exact ⟨rfl, rfl⟩

theorem selectable_of_rested {e : CredentialEntry} (rested : Rested now e)
    (enabled : e.disabled = false) : Selectable env now e := by
  intro model supports
  unfold CredentialEntry.selectable
  rw [enabled, rested.1, rested.2]
  cases opus : isOpus env model with
  | false => rfl
  | true =>
    rw [supports opus]
    rfl

theorem selectable_none (e : CredentialEntry) : e.selectable env later none =
    (!e.disabled && !coolingDown e.throttledUntil later &&
      !coolingDown e.rateLimitedUntil later) := by
  unfold CredentialEntry.selectable
  have plain : isOpus env none = false := rfl
  rw [plain]
  cases e.disabled <;> cases coolingDown e.throttledUntil later <;>
    cases coolingDown e.rateLimitedUntil later <;> rfl

theorem throttling_prolongs :
    List.Forall₂ (OnlyProlongs id) m.entries
      (m.reportAccountThrottled id now later cooldown).1.entries :=
  onlyProlongs_update (fun _ => prolongs_extend _ _) fun _ => .refl _

theorem limiting_prolongs :
    List.Forall₂ (OnlyProlongs id) m.entries
      (m.reportRateLimited id now later cooldown).1.entries := by
  have changed : List.Forall₂ (OnlyProlongs id) m.entries (m.update id fun e =>
      { e with
        rateLimitedUntil := extend e.rateLimitedUntil (now + cooldown)
        totalFailureCount := e.totalFailureCount + 1 }).entries :=
    onlyProlongs_update (fun _ => .refl _) fun _ => prolongs_extend _ _
  unfold reportRateLimited
  dsimp only
  split_ifs
  · split
    · exact changed
    · exact changed
  · exact changed

theorem find_changed {f : CredentialEntry → CredentialEntry} {e' : CredentialEntry}
    (found : (m.update id f).find id = some e') (keeps : ∀ e, (f e).id = e.id) :
    ∃ e, m.find id = some e ∧ e' = f e := by
  rw [find_update keeps, if_pos rfl] at found
  obtain ⟨e, there, rfl⟩ := Option.map_eq_some_iff.mp found
  exact ⟨e, there, rfl⟩

theorem find_editEntry {f : CredentialEntry → CredentialEntry} {m' : MultiTokenManager}
    {e' : CredentialEntry} (ok : m.editEntry id f = .ok m') (keeps : ∀ e, (f e).id = e.id)
    (found : m'.find id = some e') : ∃ e, m.find id = some e ∧ e' = f e := by
  unfold editEntry at ok
  split at ok
  · cases ok
  · cases ok
    exact find_changed found keeps

/-- What `reset_and_enable` makes of an entry. -/
def resetEntry (e : CredentialEntry) : CredentialEntry :=
  { e with
    failureCount := 0
    totalFailureCount := 0
    refreshFailureCount := 0
    disabled := false
    disabledReason := none
    throttledUntil := none }

theorem resetAndEnable_ok {m' : MultiTokenManager} : m.resetAndEnable id = .ok m' ↔
    m' = m.update id resetEntry ∧ ∃ e, m.find id = some e ∧
      e.disabledReason ≠ some .invalidConfig := by
  unfold resetAndEnable
  cases m.find id with
  | none =>
    constructor
    · intro never
      cases never
    · rintro ⟨-, _, never, -⟩
      cases never
  | some e =>
    dsimp only
    split_ifs with invalid
    · constructor
      · intro never
        cases never
      · rintro ⟨-, _, same, valid⟩
        cases same
        exact absurd invalid valid
    · constructor
      · intro ok
        cases ok
        exact ⟨rfl, e, rfl, invalid⟩
      · rintro ⟨rfl, -⟩
        rfl

theorem reset_iff : (∀ m' e, m.resetAndEnable id = .ok m' → m'.find id = some e →
      Rested now e ∧ Selectable env now e) ↔ ResetsFresh m id now := by
  constructor
  · intro rests e found valid
    have keeps (e : CredentialEntry) : (resetEntry e).id = e.id := rfl
    have there : (m.update id resetEntry).find id = some (resetEntry e) := by
      rw [find_update keeps, if_pos rfl, found]
      rfl
    exact (rests _ _ (resetAndEnable_ok.mpr ⟨rfl, e, found, valid⟩) there).1.2
  · intro fresh m' e' ok found
    obtain ⟨rfl, e, there, valid⟩ := resetAndEnable_ok.mp ok
    obtain ⟨e, there', rfl⟩ := find_changed found fun _ => rfl
    rw [there] at there'
    cases there'
    have rested : Rested now (resetEntry e) := ⟨rfl, fresh e there valid⟩
    exact ⟨rested, selectable_of_rested rested rfl⟩

theorem length_filter_eq_iff {α : Type} {p q : α → Bool} {l : List α}
    (weaker : ∀ a ∈ l, q a = true → p a = true) :
    (l.filter p).length = (l.filter q).length ↔ ∀ a ∈ l, p a = true → q a = true := by
  constructor
  · intro same a mem passes
    have counts : (l.filter p).countP q = (l.filter p).length := by
      rw [List.countP_filter, same, ← List.countP_eq_length_filter]
      refine List.countP_congr fun b there => ?_
      rw [Bool.and_eq_true]
      exact ⟨fun both => both.1, fun passes => ⟨passes, weaker b there passes⟩⟩
    exact List.countP_eq_length.mp counts a (List.mem_filter.mpr ⟨mem, passes⟩)
  · intro stronger
    rw [← List.countP_eq_length_filter, ← List.countP_eq_length_filter]
    exact List.countP_congr fun a mem => ⟨stronger a mem, weaker a mem⟩

def throttleEntry (until_ : Nat) (e : CredentialEntry) : CredentialEntry :=
  { e with
    throttledUntil := extend e.throttledUntil until_
    totalFailureCount := e.totalFailureCount + 1 }

theorem mem_updateFirst {f : CredentialEntry → CredentialEntry} {es : List CredentialEntry}
    {e' : CredentialEntry} : e' ∈ updateFirst id f es ↔ ∃ before e after,
      es = before ++ e :: after ∧
        e' = if e.id = id ∧ ∀ b ∈ before, b.id ≠ id then f e else e := by
  induction es with
  | nil =>
    constructor
    · intro never
      cases never
    · rintro ⟨before, e, after, never, -⟩
      cases before <;> cases never
  | cons first es ih =>
    unfold updateFirst
    by_cases here : first.id = id
    · rw [if_pos here, List.mem_cons]
      constructor
      · rintro (rfl | later)
        · refine ⟨[], first, es, rfl, ?_⟩
          rw [if_pos ⟨here, fun b never => by cases never⟩]
        · obtain ⟨before, after, rfl⟩ := List.append_of_mem later
          refine ⟨first :: before, e', after, rfl, ?_⟩
          rw [if_neg fun both => both.2 first List.mem_cons_self here]
      · rintro ⟨before, e, after, split, rfl⟩
        cases before with
        | nil =>
          cases split
          rw [if_pos ⟨here, fun b never => by cases never⟩]
          exact .inl rfl
        | cons b before =>
          cases split
          rw [if_neg fun both => both.2 first List.mem_cons_self here]
          exact .inr (List.mem_append_right _ List.mem_cons_self)
    · rw [if_neg here, List.mem_cons, ih]
      constructor
      · rintro (rfl | ⟨before, e, after, rfl, same⟩)
        · refine ⟨[], e', es, rfl, ?_⟩
          rw [if_neg fun both => here both.1]
        · refine ⟨first :: before, e, after, rfl, ?_⟩
          rw [same]
          simp only [List.forall_mem_cons, ne_eq, here, not_false_eq_true, true_and]
      · rintro ⟨before, e, after, split, same⟩
        cases before with
        | nil =>
          cases split
          rw [if_neg fun both => here both.1] at same
          exact .inl same
        | cons b before =>
          cases split
          refine .inr ⟨before, e, after, rfl, ?_⟩
          rw [same]
          simp only [List.forall_mem_cons, ne_eq, here, not_false_eq_true, true_and]

theorem countsRight_iff {until_ : Nat} :
    (∀ e ∈ (m.update id (throttleEntry until_)).entries, e.disabled = false →
      coolingDown e.throttledUntil later = false → coolingDown e.rateLimitedUntil later = false) ↔
      CountsRight m id until_ later := by
  have throttled (before : List CredentialEntry) (e : CredentialEntry) :
      (if e.id = id ∧ ∀ b ∈ before, b.id ≠ id then throttleEntry until_ e else e) =
        { e with
          throttledUntil := throttledThen id until_ before e
          totalFailureCount := if e.id = id ∧ ∀ b ∈ before, b.id ≠ id
            then e.totalFailureCount + 1 else e.totalFailureCount } := by
    unfold throttledThen throttleEntry
    split_ifs <;> rfl
  constructor
  · intro each before e after split enabled ready
    have there := mem_updateFirst.mpr ⟨before, e, after, split, (throttled before e).symm⟩
    have rests := each _ there
    exact rests enabled ready
  · intro counts e' mem
    obtain ⟨before, e, after, split, rfl⟩ := mem_updateFirst.mp mem
    rw [throttled]
    exact counts before e after split

theorem counted_iff : (m.reportAccountThrottled id now later cooldown).2 =
      ((m.reportAccountThrottled id now later cooldown).1.entries.filter
        (·.selectable env later none)).length ↔ CountsRight m id (now + cooldown) later := by
  rw [← countsRight_iff]
  have weaker : ∀ e ∈ (m.update id (throttleEntry (now + cooldown))).entries,
      e.selectable env later none = true →
        (!e.disabled && !coolingDown e.throttledUntil later) = true := by
    intro e _ selectable
    rw [selectable_none, Bool.and_eq_true] at selectable
    exact selectable.1
  refine (length_filter_eq_iff weaker).trans (forall₂_congr fun e mem => ?_)
  rw [selectable_none]
  cases e.disabled <;> cases coolingDown e.throttledUntil later <;> simp

/-- The operations on cooldowns do what they say exactly if a reset entry is in no rate limit, and
no enabled entry is in a rate limit only. -/
theorem recovery_iff (env : Env) (m : MultiTokenManager) (id now later cooldown : Nat)
    (stamp : String) : Recovery env m id now later cooldown stamp ↔
      ResetsFresh m id now ∧ CountsRight m id (now + cooldown) later := by
  constructor
  · intro recovery
    exact ⟨reset_iff.mp recovery.reset, counted_iff.mp recovery.counted⟩
  · rintro ⟨fresh, counts⟩
    refine ⟨throttling_prolongs, limiting_prolongs, ?_, ?_, ?_, reset_iff.mpr fresh,
      counted_iff.mpr counts⟩
    · intro e found
      obtain ⟨before, -, rfl⟩ := find_changed found fun _ => rfl
      exact rested_of_none rfl rfl
    · intro m' e' ok found
      obtain ⟨e, -, rfl⟩ := find_editEntry ok (fun _ => rfl) found
      exact rested_of_none rfl rfl
    · intro m' e' ok found
      obtain ⟨e, -, rfl⟩ := find_editEntry ok (fun _ => rfl) found
      have rested : Rested now
          { e with
            disabled := false
            failureCount := 0
            refreshFailureCount := 0
            disabledReason := none
            throttledUntil := none
            rateLimitedUntil := none } := rested_of_none rfl rfl
      exact ⟨rested, selectable_of_rested rested rfl⟩

def firstLimited : MultiTokenManager :=
  (Selection.freeAndPaid.reportRateLimited 1 0 0 60000).1

/-- A reset leaves the rate limit of the entry, so that it is not selected. -/
theorem reset_keeps_rate_limit :
    ¬ ∀ (env : Env) (m : MultiTokenManager) (id now later cooldown : Nat) (stamp : String),
      Recovery env m id now later cooldown stamp := by
  intro claim
  have resets : ((firstLimited.resetAndEnable 1).toOption.any fun m' =>
      (m'.find 1).any fun e => coolingDown e.rateLimitedUntil 0) = true := by
    decide +kernel
  obtain ⟨m', ok, there⟩ := (Option.any_eq_true _ _).mp resets
  obtain ⟨e, found, cooling⟩ := (Option.any_eq_true _ _).mp there
  have done_ : firstLimited.resetAndEnable 1 = .ok m' := by
    cases result : firstLimited.resetAndEnable 1 with
    | error message =>
      rw [result] at ok
      cases ok
    | ok m'' =>
      rw [result] at ok
      cases ok
      rfl
  have rested := ((claim plainEnv firstLimited 1 0 0 0 "").reset m' e done_ found).1.2
  rw [cooling] at rested
  cases rested

/-- The entry in a rate limit is counted behind the throttled one, but none can be selected. -/
example : (firstLimited.reportAccountThrottled 2 0 0 60000).2 = 1 ∧
    ((firstLimited.reportAccountThrottled 2 0 0 60000).1.entries.filter
      (·.selectable plainEnv 0 none)).length = 0 := by
  decide +kernel

end KiroRs.Pool.Cooldowns
