/- Path: KiroRs/Pool/FailoverRuns
   source: src/kiro/provider.rs
   digest: An API call comes to a working credential, unless a credential is used again after its
   cooldown or has its counters reset by the credentials file. -/

import KiroRs.Pool.AcquireRuns
import KiroRs.Pool.Failover

set_option autoImplicit false
set_option relaxedAutoImplicit false

namespace KiroRs.Pool.FailoverRuns

open KiroRs.Lib.Traces
open KiroRs.Pool.Credentials
open KiroRs.Pool.Manager
open KiroRs.Pool.Manager.MultiTokenManager
open KiroRs.Pool.Tasks
open KiroRs.Pool.Selection (Eligible plainEnv)
open KiroRs.Pool.ManualDisable (ids ids_update mem_update find_of_mem)
open KiroRs.Pool.Acquire
open KiroRs.Pool.AcquireRuns
open KiroRs.Pool.Fairness
open KiroRs.Pool.Failover

variable {env : Env} {p : Provider} {t : Nat} {s s' start : CallState} {input : CallInput}
variable {trace : List (CallState × CallInput)} {m m' : MultiTokenManager} {l : Loop}
variable {good : CredentialEntry} {id : Nat}

def blamed (p : Provider) (s : CallState) (input : CallInput) : Option Nat :=
  match s.phase with
  | .acquiring _ (.returned _ context) =>
      match p.endpointFor context.credentials with
      | .ok _ => none
      | .error _ => some context.id
  | .requesting l context =>
      match input.answer with
      | .response status body _ =>
          match p.verdict (context.id ∈ l.forceRefreshed) status body with
          | .quotaExhausted | .failure | .accountThrottled => some context.id
          | _ => none
      | _ => none
  | .refreshing _ id .failed => some id
  | _ => none

def sentOff (p : Provider) (s : CallState) (input : CallInput) : Option Nat :=
  match s.phase with
  | .requesting l context =>
      match input.answer with
      | .response status body _ =>
          if p.verdict (context.id ∈ l.forceRefreshed) status body = .accountThrottled then
            some context.id
          else none
      | _ => none
  | _ => none

def strikes (p : Provider) : List (CallState × CallInput) → Nat → Nat
  | [] => fun _ => 0
  | (s, input) :: earlier =>
      match blamed p s input with
      | some id => charge (strikes p earlier) id
      | none => strikes p earlier

def throttled (p : Provider) (trace : List (CallState × CallInput)) (id : Nat) : Bool :=
  trace.any fun step => sentOff p step.1 step.2 == some id

/-- The failed token attempts that the `acquire_context` under way has counted. -/
def tokenFailures : List (CallState × CallInput) → Nat → Nat
  | [] => fun _ => 0
  | (s, _) :: earlier =>
      match s.phase with
      | .head _ => fun _ => 0
      | .acquiring _ task => charged (tokenFailures earlier) task
      | _ => tokenFailures earlier

def takenUp (s : CallState) : Option Nat :=
  match s.phase with
  | .acquiring _ (.reloading _ id _) => some id
  | _ => none

def takeUps : List (CallState × CallInput) → Nat → Nat
  | [] => fun _ => 0
  | (s, _) :: earlier =>
      match takenUp s with
      | some id => charge (takeUps earlier) id
      | none => takeUps earlier

/-- No credential is used again after it was throttled in the call, and one is taken up from the
file only once, before any failure of it is counted. -/
def Steady (p : Provider) : List (CallState × CallInput) → Prop
  | [] => True
  | (s, _) :: earlier => Steady p earlier ∧ ∀ l task, s.phase = .acquiring l task →
      (∀ id, holder task = some id → throttled p earlier id = false) ∧
      ∀ id, takenUp s = some id →
        tokenFailures earlier id = 0 ∧ strikes p earlier id = 0 ∧ takeUps earlier id = 0

/-- The working credential gets its token and a success; any other answer is a 401 or a 403, an
exhausted quota, or a throttled account. -/
def Answers (p : Provider) (good : Nat) (s : CallState) (input : CallInput) : Prop :=
  match s.phase with
  | .acquiring _ (.returned _ context) =>
      context.id = good → (p.endpointFor context.credentials).isOk = true
  | .acquiring _ task => failing task ≠ some good
  | .requesting _ context =>
      match input.answer with
      | .response status body _ =>
          if context.id = good then 200 ≤ status ∧ status < 300
          else status = 401 ∨ status = 403 ∨ status = 402 ∧ isMonthlyRequestLimit p.fromStr body ∨
            status = 429 ∧ isAccountThrottled body
      | _ => False
  | _ => True

instance (good : Nat) : Decidable (Answers p good s input) := by
  unfold Answers
  repeat' split
  all_goals infer_instance

theorem Answers.works {task : Task} {good : Nat} (answers : Answers p good s input)
    (phase : s.phase = .acquiring l task) : failing task ≠ some good := by
  unfold Answers at answers
  rw [phase] at answers
  cases task with
  | returned model context => exact fun never => nomatch never
  | _ => exact answers

theorem Answers.response {context : CallContext} {good : Nat} (answers : Answers p good s input)
    (phase : s.phase = .requesting l context) : ∃ status body retryAfter,
      input.answer = .response status body retryAfter ∧
        if context.id = good then 200 ≤ status ∧ status < 300
        else status = 401 ∨ status = 403 ∨ status = 402 ∧ isMonthlyRequestLimit p.fromStr body ∨
          status = 429 ∧ isAccountThrottled body := by
  unfold Answers at answers
  rw [phase] at answers
  dsimp only at answers
  cases answer : input.answer with
  | unsendable | networkError =>
    rw [answer] at answers
    exact answers.elim
  | response status body retryAfter =>
    rw [answer] at answers
    exact ⟨status, body, retryAfter, rfl, answers⟩

/-- The clocks of every step are at `began` or later. -/
def Later (began : Nat) (_ : CallState) (input : CallInput) : Prop :=
  began ≤ input.pool.now ∧ began ≤ input.later

/-- While no working credential is asked: every attempt is covered by a strike or by the one forced
refresh of another credential, and each of those had at most three strikes, with what it may still
have. -/
structure Tally (good : CredentialEntry) (fails : Nat → Nat) (off : Nat → Bool)
    (m : MultiTokenManager) (l : Loop) (spare : Nat) : Prop where
  stands : Stands good m
  size : l.maxRetries = m.entries.length * l.policy.maxRequestRetries
  retries : 4 ≤ l.policy.maxRequestRetries
  rounds : l.attempt + spare ≤
    ∑ i ∈ others good m, (fails i + if i ∈ l.forceRefreshed then 1 else 0)
  each : ∀ e ∈ m.entries, e.id ≠ good.id →
    fails e.id + allowance (e.disabled || off e.id) e.failureCount ≤ 3

variable {fails : Nat → Nat} {off off' : Nat → Bool} {spare : Nat}

theorem Tally.within (tally : Tally good fails off m l spare) : l.attempt < l.maxRetries := by
  have four : ∑ i ∈ others good m, (fails i + if i ∈ l.forceRefreshed then 1 else 0) ≤
      (others good m).card • 4 := by
    refine Finset.sum_le_card_nsmul _ _ 4 fun i mem => ?_
    obtain ⟨ne, there⟩ := mem_others.mp mem
    obtain ⟨e, mem_e, rfl⟩ := List.mem_map.mp there
    have three := tally.each e mem_e ne
    split_ifs <;> omega
  have card := card_others tally.stands
  have rounds := tally.rounds
  have most : m.entries.length * 4 ≤ l.maxRetries := by
    rw [tally.size]
    exact Nat.mul_le_mul_left _ tally.retries
  rw [Nat.nsmul_eq_mul] at four
  omega

/-- A credential that another `acquire_context` may hand out. -/
structure Usable (off : Nat → Bool) (id : Nat) (m : MultiTokenManager) : Prop where
  enabled : ∃ e ∈ m.entries, e.id = id ∧ e.disabled = false
  on : off id = false

theorem Tally.kept {loaded : Nat → Prop} (tally : Tally good fails off m l spare)
    (kept : Kept loaded m m') (stands : Stands good m') (fresh : ∀ i, loaded i → fails i = 0) :
    Tally good fails off m' l spare where
  stands := stands
  size := by
    have lengths := congrArg List.length kept.same_ids
    unfold ids at lengths
    rw [List.length_map, List.length_map] at lengths
    rw [lengths]
    exact tally.size
  retries := tally.retries
  rounds := by
    rw [others_congr kept.same_ids]
    exact tally.rounds
  each := by
    intro e' mem ne
    rcases kept.each e' mem with loaded | ⟨e, mem_e, same, count, stays⟩
    · rw [fresh _ loaded]
      exact Nat.le_trans (Nat.le_of_eq (Nat.zero_add _)) (allowance_le _ _)
    · have before := tally.each e mem_e (by rw [same]; exact ne)
      rw [← same, count]
      refine Nat.le_trans (Nat.add_le_add_left ?_ _) before
      cases was : e.disabled with
      | true => rw [stays was]
      | false =>
        cases e'.disabled with
        | true => exact Nat.zero_le _
        | false => exact Nat.le_refl _

/-- A strike against an enabled entry: it is stopped, or nearer to that. -/
structure Struck (off : Bool) (e : CredentialEntry) (m m' : MultiTokenManager) : Prop where
  edited : ∃ f : CredentialEntry → CredentialEntry, (∀ e', (f e').id = e'.id) ∧
    m'.entries = (m.update e.id f).entries ∧
    allowance ((f e).disabled || off) (f e).failureCount + 1 ≤ allowance false e.failureCount

/-- A failed answer is charged to its credential, and the next attempt begins. -/
theorem Tally.struck (tally : Tally good fails off m l spare) (ne : id ≠ good.id)
    (usable : Usable off id m) {gone : Bool}
    (struck : ∀ e, m.find id = some e → e.disabled = false → Struck gone e m m')
    (same_off : ∀ i, i ≠ id → off' i = off i) (now_off : off' id = gone) :
    Tally good (charge fails id) off' m' { l with attempt := l.attempt + 1 } 0 := by
  obtain ⟨⟨e, mem, rfl, enabled⟩, on⟩ := usable
  have nodup := tally.stands.nodup
  have found := find_of_mem nodup mem
  obtain ⟨f, keeps, entries, nearer⟩ := (struck e found enabled).edited
  have same_ids : ids m' = ids m := by
    have renamed : ids (m.update e.id f) = ids m := ids_update keeps
    rw [← renamed]
    unfold ids
    rw [entries]
  have e_other : e.id ∈ others good m := mem_others.mpr ⟨ne, List.mem_map_of_mem mem⟩
  refine ⟨(tally.stands.update keeps ne.symm).congr entries, ?_, tally.retries, ?_, ?_⟩
  · have lengths := congrArg List.length same_ids
    unfold ids at lengths
    rw [List.length_map, List.length_map] at lengths
    rw [lengths]
    exact tally.size
  · have rounds := tally.rounds
    rw [Finset.sum_add_distrib] at rounds
    rw [others_congr same_ids, Finset.sum_add_distrib, sum_charge e_other]
    dsimp only
    omega
  · intro e' mem' ne'
    rw [entries] at mem'
    rcases mem_updated nodup mem' with ⟨old, other⟩ | ⟨e₀, mem₀, same, rfl⟩
    · rw [charge_other other, same_off _ other]
      exact tally.each e' old ne'
    · have first : e₀ = e := by
        have found₀ := find_of_mem nodup mem₀
        rw [same, found] at found₀
        cases found₀
        rfl
      cases first
      have before := tally.each e mem ne
      rw [enabled, on] at before
      rw [keeps, charge_self, now_off]
      have spent : allowance (false || false) e.failureCount = allowance false e.failureCount := rfl
      omega

theorem Tally.forced (tally : Tally good fails off m l 0) (ne : id ≠ good.id)
    (usable : Usable off id m) (first : id ∉ l.forceRefreshed) :
    Tally good fails off m { l with forceRefreshed := id :: l.forceRefreshed } 1 where
  stands := tally.stands
  size := tally.size
  retries := tally.retries
  rounds := by
    obtain ⟨e, mem, rfl, -⟩ := usable.enabled
    have other : e.id ∈ others good m := mem_others.mpr ⟨ne, List.mem_map_of_mem mem⟩
    have rounds := tally.rounds
    have more : ∀ i ∈ others good m,
        (fails i + if i ∈ e.id :: l.forceRefreshed then 1 else 0) =
          (fails i + if i ∈ l.forceRefreshed then 1 else 0) + if i = e.id then 1 else 0 := by
      intro i _
      by_cases here : i = e.id
      · rw [here, if_pos List.mem_cons_self, if_neg first, if_pos rfl]
      · have same : (i ∈ e.id :: l.forceRefreshed) ↔ i ∈ l.forceRefreshed := by
          rw [List.mem_cons]
          exact or_iff_right here
        rw [if_neg here, Nat.add_zero]
        simp only [same]
    dsimp only
    rw [Finset.sum_congr rfl more, Finset.sum_add_distrib, Finset.sum_ite_eq', if_pos other]
    exact Nat.add_le_add_right rounds 1
  each := tally.each

theorem struck_off {f : CredentialEntry → CredentialEntry} {gone : Bool} {e : CredentialEntry}
    (keeps : ∀ e', (f e').id = e'.id) (entries : m'.entries = (m.update e.id f).entries)
    (stopped : ((f e).disabled || gone) = true) : Struck gone e m m' := by
  refine ⟨f, keeps, entries, ?_⟩
  rw [stopped]
  exact allowance_off (f e).failureCount e.failureCount

theorem struck_reportFailure (stamp : String) {e : CredentialEntry} (found : m.find id = some e)
    (enabled : e.disabled = false) : Struck false e m (m.reportFailure id stamp).1 := by
  have same := id_of_find found
  cases same
  unfold MultiTokenManager.reportFailure
  rw [onEnabled_of_find found enabled]
  dsimp only
  split_ifs with finished
  · exact struck_off (f := fun e' =>
      { e' with
        failureCount := e.failureCount + 1
        totalFailureCount := e'.totalFailureCount + 1
        lastUsedAt := some stamp
        disabled := true
        disabledReason := some .tooManyFailures }) (fun _ => rfl) entries_switchToBest rfl
  · refine ⟨fun e' =>
      { e' with
        failureCount := e.failureCount + 1
        totalFailureCount := e'.totalFailureCount + 1
        lastUsedAt := some stamp }, fun _ => rfl, rfl, ?_⟩
    dsimp only
    rw [enabled]
    exact allowance_succ (Nat.lt_of_not_le finished)

theorem struck_reportQuotaExhausted (stamp : String) {e : CredentialEntry}
    (found : m.find id = some e) (enabled : e.disabled = false) :
    Struck false e m (m.reportQuotaExhausted id stamp).1 := by
  have same := id_of_find found
  cases same
  unfold MultiTokenManager.reportQuotaExhausted
  rw [onEnabled_of_find found enabled]
  exact struck_off (f := fun e =>
    { e with
      disabled := true
      disabledReason := some .quotaExceeded
      lastUsedAt := some stamp
      failureCount := maxFailuresPerCredential
      totalFailureCount := e.totalFailureCount + 1 }) (fun _ => rfl) entries_switchToBest rfl

theorem struck_reportAccountThrottled (now later cooldown : Nat) {e : CredentialEntry}
    (found : m.find id = some e) :
    Struck true e m (m.reportAccountThrottled id now later cooldown).1 := by
  have same := id_of_find found
  cases same
  exact struck_off (f := fun e =>
    { e with
      throttledUntil := extend e.throttledUntil (now + cooldown)
      totalFailureCount := e.totalFailureCount + 1 }) (fun _ => rfl) rfl (Bool.or_true _)

theorem left_onEnabled {report : CredentialEntry → MultiTokenManager × Bool}
    (there : good ∈ m.entries) (enabled : good.disabled = false)
    (left : ∀ e, (report e).2 = true) : (m.onEnabled id report).2 = true := by
  unfold MultiTokenManager.onEnabled
  split
  · exact anyEnabled_of_mem there enabled
  · split_ifs
    · exact anyEnabled_of_mem there enabled
    · exact left _

theorem left_reportFailure (stamp : String) (there : good ∈ m.entries)
    (enabled : good.disabled = false) (ne : good.id ≠ id) :
    (m.reportFailure id stamp).2 = true := by
  unfold MultiTokenManager.reportFailure
  refine left_onEnabled there enabled fun e => ?_
  dsimp only
  split_ifs
  · refine anyEnabled_of_mem (e := good) ?_ enabled
    rw [entries_switchToBest]
    exact mem_update_other there ne
  · exact anyEnabled_of_mem (mem_update_other there ne) enabled

theorem left_reportQuotaExhausted (stamp : String) (there : good ∈ m.entries)
    (enabled : good.disabled = false) (ne : good.id ≠ id) :
    (m.reportQuotaExhausted id stamp).2 = true := by
  unfold MultiTokenManager.reportQuotaExhausted
  exact left_onEnabled there enabled fun e =>
    bestEnabled_of_mem (mem_update_other there ne) enabled

theorem left_reportAccountThrottled {model : Option String} (now later cooldown : Nat)
    (there : good ∈ m.entries) (eligible : Eligible env later model good) (ne : good.id ≠ id) :
    ((m.reportAccountThrottled id now later cooldown).2 != 0) = true := by
  rw [bne_iff_ne]
  unfold MultiTokenManager.reportAccountThrottled
  dsimp only
  intro none_left
  have empty := List.length_eq_zero_iff.mp none_left
  have cool : coolingDown good.throttledUntil later = false :=
    Selection.coolingDown_eq_false.mpr eligible.not_throttled
  have stays : good ∈ (m.update id fun e =>
      { e with
        throttledUntil := extend e.throttledUntil (now + cooldown)
        totalFailureCount := e.totalFailureCount + 1 }).entries := mem_update_other there ne
  refine List.filter_eq_nil_iff.mp empty good stays ?_
  show (!good.disabled && !coolingDown good.throttledUntil later) = true
  rw [eligible.enabled, cool]
  rfl

/-- The places of a forced refresh of this credential, with the holder of the refresh lock. -/
def Forcing (t id : Nat) (lock : Option Nat) : Task → Prop
  | .forceReading i | .forceWaiting i _ => i = id ∧ lock = none
  | .forceRefreshing i _ => i = id ∧ lock = some t
  | .done | .failed => lock = none
  | _ => False

def forceStage : Task → Nat
  | .forceReading _ => 3
  | .forceWaiting _ _ => 2
  | .forceRefreshing _ _ => 1
  | _ => 0

theorem forcing_step {pool : Input} {lock : Option Nat} {task : Task} {next : Next}
    (forcing : Forcing t id lock task) (taken : stepTask env t pool m lock task = some next) :
    Forcing t id next.refreshLock next.task ∧ forceStage next.task < forceStage task ∧
      (next.manager.entries = m.entries ∨
        ∃ f, Mild f ∧ next.manager.entries = (m.update id f).entries) := by
  cases task with
  | forceReading i =>
    obtain ⟨rfl, free⟩ := forcing
    simp only [stepTask] at taken
    split at taken
    · cases taken
      exact ⟨free, Nat.succ_pos 2, .inl rfl⟩
    · cases taken
      exact ⟨⟨rfl, free⟩, Nat.lt_succ_self 2, .inl rfl⟩
  | forceWaiting i snapshot =>
    obtain ⟨rfl, free⟩ := forcing
    simp only [stepTask] at taken
    split_ifs at taken
    cases taken
    exact ⟨⟨rfl, rfl⟩, Nat.lt_succ_self 1, .inl rfl⟩
  | forceRefreshing i snapshot =>
    obtain ⟨rfl, -⟩ := forcing
    simp only [stepTask] at taken
    split at taken
    · cases taken
      exact ⟨rfl, Nat.succ_pos 0, .inl rfl⟩
    · next new answer =>
      cases taken
      refine ⟨rfl, Nat.succ_pos 0, .inr ⟨fun e =>
        { e with credentials := new, refreshFailureCount := 0 }, fun _ => ⟨rfl, rfl, rfl⟩, ?_⟩⟩
      exact updateFirst_updateFirst (f := fun e => { e with credentials := new })
        (g := fun e => { e with refreshFailureCount := 0 }) (fun _ => rfl) m.entries
  | done | failed => cases taken
  | _ => exact forcing.elim

theorem forcing_progress {pool : Input} {lock : Option Nat} {task : Task}
    (forcing : Forcing t id lock task) (begun : 0 < forceStage task) :
    (stepTask env t pool m lock task).isSome = true := by
  cases task with
  | forceReading i =>
    simp only [stepTask]
    split <;> rfl
  | forceWaiting i snapshot =>
    simp only [stepTask]
    rw [if_pos forcing.2]
    rfl
  | forceRefreshing i snapshot =>
    simp only [stepTask]
    split <;> rfl
  | _ => cases begun

variable {model : Option String}

def Standing (p : Provider) (t : Nat) (good : CredentialEntry) (model : Option String)
    (trace : List (CallState × CallInput)) (s : CallState) : Prop :=
  match s.phase with
  | .head l => l.model = model ∧ s.refreshLock = none ∧
      Tally good (strikes p trace) (throttled p trace) s.manager l 0
  | .acquiring l task => l.model = model ∧ l.attempt < l.maxRetries ∧ Sound t s.refreshLock task ∧
      Fair good model (tokenFailures trace) s.manager task ∧ (holder task ≠ some good.id →
        Tally good (strikes p trace) (throttled p trace) s.manager l 0)
  | .requesting l context => l.model = model ∧ l.attempt < l.maxRetries ∧ s.refreshLock = none ∧
      (context.id ≠ good.id → Tally good (strikes p trace) (throttled p trace) s.manager l 0 ∧
        Usable (throttled p trace) context.id s.manager)
  | .refreshing l id task => l.model = model ∧ l.attempt < l.maxRetries ∧
      Forcing t id s.refreshLock task ∧ id ≠ good.id ∧
      Tally good (strikes p trace) (throttled p trace) s.manager l 1 ∧
      Usable (throttled p trace) id s.manager
  | .succeeded _ => True
  | .failed => False

def untaken (all : List Nat) (trace : List (CallState × CallInput)) : Nat :=
  (all.toFinset.filter fun i => takeUps trace i = 0).card

def roundCost (n : Nat) : Nat := 80 * n + 20

/-- The steps that are left, at most, where `r` credentials may still be taken up. -/
def rest (n r : Nat) (s : CallState) : Nat :=
  match s.phase with
  | .head l => roundCost n * (l.maxRetries - l.attempt) + 1
  | .acquiring l task => roundCost n * (l.maxRetries - l.attempt - 1) + cost r task + 10
  | .requesting l _ => roundCost n * (l.maxRetries - l.attempt - 1) + 9
  | .refreshing l _ task => roundCost n * (l.maxRetries - l.attempt - 1) + forceStage task + 2
  | .succeeded _ | .failed => 0

structure Made (p : Provider) (t : Nat) (good : CredentialEntry) (model : Option String)
    (all : List Nat) (trace : List (CallState × CallInput)) (s : CallState) (input : CallInput)
    (s' : CallState) : Prop where
  standing : Standing p t good model ((s, input) :: trace) s'
  same_ids : ids s'.manager = ids s.manager
  fewer : rest all.length (untaken all ((s, input) :: trace)) s' <
    rest all.length (untaken all trace) s

theorem strikes_of_none (none : blamed p s input = none) :
    strikes p ((s, input) :: trace) = strikes p trace := by
  rw [strikes, none]

theorem strikes_of_some (some : blamed p s input = some id) :
    strikes p ((s, input) :: trace) = charge (strikes p trace) id := by
  rw [strikes, some]

theorem throttled_of_none (none : sentOff p s input = none) :
    throttled p ((s, input) :: trace) = throttled p trace := by
  funext i
  rw [throttled, List.any_cons, none]
  rfl

theorem throttled_of_some (some : sentOff p s input = some id) :
    throttled p ((s, input) :: trace) id = true ∧
      ∀ i, i ≠ id → throttled p ((s, input) :: trace) i = throttled p trace i := by
  refine ⟨?_, fun i ne => ?_⟩
  · rw [throttled, List.any_cons, some, beq_self_eq_true, Bool.true_or]
  · have other : (Option.some id == Option.some i) = false :=
      beq_eq_false_iff_ne.mpr fun same => ne (Option.some.inj same).symm
    rw [throttled, List.any_cons, some, other, Bool.false_or]
    rfl

theorem takeUps_of_none (none : takenUp s = none) :
    takeUps ((s, input) :: trace) = takeUps trace := by
  rw [takeUps, none]

theorem untaken_of_none {all : List Nat} (none : takenUp s = none) :
    untaken all ((s, input) :: trace) = untaken all trace := by
  unfold untaken
  rw [takeUps_of_none none]

theorem untaken_of_some {all : List Nat} (some : takenUp s = some id) (there : id ∈ all)
    (first : takeUps trace id = 0) :
    untaken all ((s, input) :: trace) + 1 ≤ untaken all trace := by
  unfold untaken
  rw [takeUps, some]
  dsimp only
  refine Finset.card_lt_card (Finset.ssubset_iff_of_subset ?_ |>.mpr ⟨id, ?_, ?_⟩)
  · intro i mem
    rw [Finset.mem_filter] at mem ⊢
    refine ⟨mem.1, ?_⟩
    by_cases here : i = id
    · rw [here]
      exact first
    · rw [charge_other here] at mem
      exact mem.2
  · rw [Finset.mem_filter, List.mem_toFinset]
    exact ⟨there, first⟩
  · rw [Finset.mem_filter, charge_self]
    exact fun never => absurd never.2 (Nat.succ_ne_zero _)

theorem untaken_le (all : List Nat) (trace : List (CallState × CallInput)) :
    untaken all trace ≤ all.length :=
  Nat.le_trans (Finset.card_filter_le _ _) (List.toFinset_card_le all)

theorem roundCost_next (n : Nat) (within : l.attempt < l.maxRetries) :
    roundCost n * (l.maxRetries - l.attempt) =
      roundCost n * (l.maxRetries - l.attempt - 1) + roundCost n := by
  have more : l.maxRetries - l.attempt = l.maxRetries - l.attempt - 1 + 1 := by omega
  rw [more, Nat.mul_succ]
  simp

theorem head_step {all : List Nat} (same : ids s.manager = all) (nonempty : 1 ≤ all.length)
    (phase : s.phase = .head l) (standing : Standing p t good model trace s)
    (taken : stepCall p env t s input = some s') : Made p t good model all trace s input s' := by
  unfold Standing at standing
  rw [phase] at standing
  obtain ⟨rfl, free, tally⟩ := standing
  have within := tally.within
  unfold stepCall at taken
  rw [phase] at taken
  dsimp only at taken
  rw [if_pos within] at taken
  cases taken
  have blames : blamed p s input = none := by rw [blamed, phase]
  have sends : sentOff p s input = none := by rw [sentOff, phase]
  have loads : takenUp s = none := by rw [takenUp, phase]
  have fresh : tokenFailures ((s, input) :: trace) = fun _ => 0 := by rw [tokenFailures, phase]
  refine ⟨?_, rfl, ?_⟩
  · unfold Standing
    dsimp only
    rw [strikes_of_none blames, throttled_of_none sends, fresh]
    exact ⟨rfl, within, free, Fair.start tally.stands l.model, fun _ => tally⟩
  · have few := untaken_le all trace
    have length : s.manager.entries.length = all.length := by
      rw [← same]
      exact (List.length_map _).symm
    rw [untaken_of_none loads]
    unfold rest
    rw [phase]
    dsimp only
    rw [roundCost_next _ within]
    show _ + (20 * (max (s.manager.entries.length * 3) 1 - 0 + untaken all trace) + 7) + 10 < _
    rw [length]
    unfold roundCost
    omega

theorem ids_of_struck {gone : Bool} {e : CredentialEntry} (struck : Struck gone e m m') :
    ids m' = ids m := by
  obtain ⟨f, keeps, entries, -⟩ := struck.edited
  have renamed : ids (m.update e.id f) = ids m := ids_update keeps
  rw [← renamed]
  unfold ids
  rw [entries]

theorem Usable.find (usable : Usable off id m) (stands : Stands good m) :
    ∃ e, m.find id = some e ∧ e.disabled = false := by
  obtain ⟨⟨e, mem, rfl, enabled⟩, -⟩ := usable
  exact ⟨e, find_of_mem stands.nodup mem, enabled⟩

theorem standing_struck (s' : CallState) (gone : Bool)
    (tally : Tally good (strikes p trace) (throttled p trace) s.manager l spare)
    (named : l.model = model) (ne : id ≠ good.id) (usable : Usable (throttled p trace) id s.manager)
    (struck : ∀ e, s.manager.find id = some e → e.disabled = false →
      Struck gone e s.manager s'.manager)
    (blames : blamed p s input = some id)
    (sends : sentOff p s input = if gone then some id else none)
    (free : s'.refreshLock = none) (phase : s'.phase = l.next) :
    Standing p t good model ((s, input) :: trace) s' ∧ ids s'.manager = ids s.manager := by
  obtain ⟨e, found, enabled⟩ := usable.find tally.stands
  have renamed := ids_of_struck (struck e found enabled)
  refine ⟨?_, renamed⟩
  unfold Standing
  rw [phase, strikes_of_some blames]
  refine ⟨named, free, tally.struck ne usable struck ?_ ?_⟩
  · intro i other
    cases gone with
    | true => exact (throttled_of_some sends).2 i other
    | false => rw [throttled_of_none sends]
  · cases gone with
    | true => exact (throttled_of_some sends).1
    | false =>
      rw [throttled_of_none sends]
      exact usable.on

theorem rest_next {n r r' : Nat}
    (phase : s'.phase = .head { l with attempt := l.attempt + 1 })
    (left : roundCost n * (l.maxRetries - l.attempt - 1) + 1 < rest n r s) :
    rest n r' s' < rest n r s := by
  refine Nat.lt_of_le_of_lt (Nat.le_of_eq ?_) left
  unfold rest
  rw [phase]
  rfl

/-- A credential was picked. -/
theorem returned_step {all : List Nat} {model' : Option String} {context : CallContext}
    (phase : s.phase = .acquiring l (.returned model' context))
    (standing : Standing p t good model trace s)
    (answers : Answers p good.id s input) (steady : Steady p ((s, input) :: trace))
    (taken : stepCall p env t s input = some s') : Made p t good model all trace s input s' := by
  unfold Standing at standing
  rw [phase] at standing
  obtain ⟨rfl, within, free, fair, tally⟩ := standing
  obtain ⟨unthrottled, -⟩ := steady.2 l _ phase
  have loads : takenUp s = none := by rw [takenUp, phase]
  have sends : sentOff p s input = none := by rw [sentOff, phase]
  have usable : context.id ≠ good.id → Usable (throttled p trace) context.id s.manager := by
    intro ne
    have other : holder (.returned model' context) ≠ some good.id :=
      fun same => ne (Option.some.inj same)
    exact ⟨(fair.ledger other).enabled context.id rfl, unthrottled context.id rfl⟩
  have other : context.id ≠ good.id → holder (.returned model' context) ≠ some good.id :=
    fun ne same => ne (Option.some.inj same)
  unfold stepCall at taken
  rw [phase] at taken
  dsimp only at taken
  cases endpoint : p.endpointFor context.credentials with
  | ok name =>
    rw [endpoint] at taken
    cases taken
    have blames : blamed p s input = none := by
      rw [blamed, phase]
      dsimp only
      rw [endpoint]
    refine ⟨?_, rfl, ?_⟩
    · unfold Standing
      dsimp only
      rw [strikes_of_none blames, throttled_of_none sends]
      exact ⟨rfl, within, free, fun ne => ⟨tally (other ne), usable ne⟩⟩
    · unfold rest
      rw [phase]
      dsimp only
      omega
  | error message =>
    rw [endpoint] at taken
    cases taken
    have ne : context.id ≠ good.id := by
      intro same
      unfold Answers at answers
      rw [phase] at answers
      have known := answers same
      rw [endpoint] at known
      cases known
    have blames : blamed p s input = some context.id := by
      rw [blamed, phase]
      dsimp only
      rw [endpoint]
    obtain ⟨standing, renamed⟩ := standing_struck
      ⟨(s.manager.reportFailure context.id input.pool.stamp).1, s.refreshLock, l.next⟩ false
      (tally (other ne)) rfl ne (usable ne)
      (fun e found enabled => struck_reportFailure input.pool.stamp found enabled) blames sends
      free rfl
    refine ⟨standing, renamed, rest_next rfl ?_⟩
    unfold rest
    rw [phase]
    dsimp only
    omega

theorem acquiring_step {all : List Nat} {task : Task} {began : Nat} (same : ids s.manager = all)
    (phase : s.phase = .acquiring l task) (waits : task.waits = true)
    (standing : Standing p t good model trace s) (eligible : Eligible env began model good)
    (later : Later began s input) (answers : Answers p good.id s input)
    (steady : Steady p ((s, input) :: trace)) (taken : stepCall p env t s input = some s') :
    Made p t good model all trace s input s' := by
  unfold Standing at standing
  rw [phase] at standing
  obtain ⟨rfl, within, sound, fair, tally⟩ := standing
  have works := answers.works phase
  obtain ⟨-, fresh⟩ := steady.2 l _ phase
  rw [stepCall_acquiring phase waits] at taken
  obtain ⟨next, made, rfl⟩ := Option.map_eq_some_iff.mp taken
  have sends : sentOff p s input = none := by rw [sentOff, phase]
  have blames : blamed p s input = none := by
    rw [blamed, phase]
    cases task with
    | returned _ _ => cases waits
    | _ => rfl
  have loading : ∀ a i found, task = .reloading a i found → takenUp s = some i := by
    rintro a i found rfl
    rw [takenUp, phase]
  have kept := kept_step sound fair.alive made
  have fair' := fair.step sound (eligible_later eligible later.1) works
    (fun a i found here => (fresh i (loading a i found here)).1) made
  have counted : tokenFailures ((s, input) :: trace) = charged (tokenFailures trace) task := by
    rw [tokenFailures, phase]
  refine ⟨?_, kept.same_ids, ?_⟩
  · unfold Standing
    dsimp only
    rw [strikes_of_none blames, throttled_of_none sends, counted]
    refine ⟨rfl, within, (paid_step 0 sound made).sound, fair', fun ne => ?_⟩
    have before : holder task ≠ some good.id :=
      fun holds => ne (holder_step sound works holds made).holder
    refine (tally before).kept kept (fair'.ledger ne).stands ?_
    rintro i ⟨a, found, here⟩
    exact (fresh i (loading a i found here)).2.1
  · have paid : ∃ r, r = untaken all ((s, input) :: trace) ∧
        r + reloads task ≤ untaken all trace := by
      refine ⟨_, rfl, ?_⟩
      by_cases loads : ∃ a i found, task = .reloading a i found
      · obtain ⟨a, i, found, rfl⟩ := loads
        have takes := loading a i found rfl
        have before : holder (.reloading a i found) ≠ some good.id := fun holds => works holds
        obtain ⟨e, mem, rfl, -⟩ := (fair.ledger before).enabled i rfl
        have there : e.id ∈ all := by
          rw [← same]
          exact List.mem_map_of_mem mem
        exact untaken_of_some takes there (fresh e.id takes).2.2
      · have plain : reloads task = 0 :=
          reloads_eq_zero fun a i found here => loads ⟨a, i, found, here⟩
        have none : takenUp s = none := by
          rw [takenUp, phase]
          cases task with
          | reloading a i found => exact absurd ⟨a, i, found, rfl⟩ loads
          | _ => rfl
        rw [untaken_of_none none, plain]
        exact Nat.le_refl _
    obtain ⟨r, here, fewer⟩ := paid
    have steps := (paid_step r sound made).steps
    have le := cost_mono fewer task
    rw [← here]
    unfold rest
    rw [phase]
    dsimp only
    omega

theorem verdict_failed {status : Nat} {body : String} (refreshed : Bool)
    (failover : p.accountThrottleFailover = true)
    (answer : status = 401 ∨ status = 403 ∨ status = 402 ∧ isMonthlyRequestLimit p.fromStr body ∨
      status = 429 ∧ isAccountThrottled body) :
    p.verdict refreshed status body = .quotaExhausted ∨
      p.verdict refreshed status body = .failure ∨
      p.verdict refreshed status body = .forceRefresh ∧ refreshed = false ∨
      p.verdict refreshed status body = .accountThrottled := by
  have auth : status = 401 ∨ status = 403 → p.verdict refreshed status body = .failure ∨
      p.verdict refreshed status body = .forceRefresh ∧ refreshed = false := by
    intro auth
    unfold Provider.verdict
    rw [if_neg (by omega), if_neg (by omega), if_neg (by omega), if_pos auth]
    split_ifs with bearer
    · refine .inr ⟨rfl, ?_⟩
      simp only [Bool.and_eq_true, Bool.not_eq_true'] at bearer
      exact bearer.2
    · exact .inl rfl
  rcases answer with rfl | rfl | ⟨rfl, monthly⟩ | ⟨rfl, throttles⟩
  · rcases auth (.inl rfl) with failure | refresh
    · exact .inr (.inl failure)
    · exact .inr (.inr (.inl refresh))
  · rcases auth (.inr rfl) with failure | refresh
    · exact .inr (.inl failure)
    · exact .inr (.inr (.inl refresh))
  · left
    unfold Provider.verdict
    rw [if_neg (by omega), if_pos ⟨rfl, monthly⟩]
  · right; right; right
    unfold Provider.verdict
    rw [if_neg (by omega), if_neg (by omega), if_neg (by omega), if_neg (by omega),
      if_pos ⟨rfl, failover, throttles⟩]

theorem blamed_requesting {context : CallContext} {status : Nat} {body : String}
    {retryAfter : Option Nat} (phase : s.phase = .requesting l context)
    (answer : input.answer = .response status body retryAfter) : blamed p s input =
      match p.verdict (context.id ∈ l.forceRefreshed) status body with
      | .quotaExhausted | .failure | .accountThrottled => some context.id
      | _ => none := by
  rw [blamed, phase]
  dsimp only
  rw [answer]

theorem sentOff_requesting {context : CallContext} {status : Nat} {body : String}
    {retryAfter : Option Nat} (phase : s.phase = .requesting l context)
    (answer : input.answer = .response status body retryAfter) : sentOff p s input =
      if p.verdict (context.id ∈ l.forceRefreshed) status body = .accountThrottled then
        some context.id
      else none := by
  rw [sentOff, phase]
  dsimp only
  rw [answer]

theorem requesting_step {all : List Nat} {context : CallContext} {began : Nat}
    (phase : s.phase = .requesting l context) (standing : Standing p t good model trace s)
    (failover : p.accountThrottleFailover = true) (eligible : Eligible env began model good)
    (later : Later began s input) (answers : Answers p good.id s input)
    (taken : stepCall p env t s input = some s') : Made p t good model all trace s input s' := by
  unfold Standing at standing
  rw [phase] at standing
  obtain ⟨rfl, within, free, tally⟩ := standing
  obtain ⟨status, body, retryAfter, answer, fits⟩ := answers.response phase
  have loads : takenUp s = none := by rw [takenUp, phase]
  have spent : roundCost all.length * (l.maxRetries - l.attempt - 1) + 1 <
      rest all.length (untaken all trace) s := by
    unfold rest
    rw [phase]
    dsimp only
    omega
  unfold stepCall at taken
  rw [phase] at taken
  dsimp only at taken
  unfold Provider.answered at taken
  rw [answer] at taken
  dsimp only at taken
  split_ifs at fits with mine
  · have verdict : p.verdict (context.id ∈ l.forceRefreshed) status body = .success := if_pos fits
    rw [verdict] at taken
    cases taken
    refine ⟨trivial, ids_update fun _ => rfl, ?_⟩
    exact Nat.lt_of_le_of_lt (Nat.zero_le _) spent
  obtain ⟨tally, usable⟩ := tally mine
  obtain ⟨-, there, enabled⟩ := tally.stands
  -- three of the reports strike the entry that was asked, and the call goes on to the next round
  have struck (m' : MultiTokenManager) (gone : Bool)
      (strike : ∀ e, s.manager.find context.id = some e → e.disabled = false →
        Struck gone e s.manager m')
      (blames : blamed p s input = some context.id)
      (sends : sentOff p s input = if gone then some context.id else none) :
      Made p t good l.model all trace s input ⟨m', s.refreshLock, l.next⟩ := by
    obtain ⟨standing, renamed⟩ := standing_struck ⟨m', s.refreshLock, l.next⟩ gone tally rfl mine
      usable strike blames sends free rfl
    exact ⟨standing, renamed, rest_next rfl spent⟩
  rcases verdict_failed (decide (context.id ∈ l.forceRefreshed)) failover fits with
    verdict | verdict | ⟨verdict, first⟩ | verdict
  · have left := left_reportQuotaExhausted input.pool.stamp there enabled (Ne.symm mine)
    rw [verdict] at taken
    dsimp only at taken
    rw [left] at taken
    cases taken
    exact struck _ false
      (fun e found enabled => struck_reportQuotaExhausted input.pool.stamp found enabled)
      (by rw [blamed_requesting phase answer, verdict])
      (by rw [sentOff_requesting phase answer, verdict, if_neg (fun never => nomatch never)]; rfl)
  · have left := left_reportFailure input.pool.stamp there enabled (Ne.symm mine)
    rw [verdict] at taken
    dsimp only at taken
    rw [left] at taken
    cases taken
    exact struck _ false
      (fun e found enabled => struck_reportFailure input.pool.stamp found enabled)
      (by rw [blamed_requesting phase answer, verdict])
      (by rw [sentOff_requesting phase answer, verdict, if_neg (fun never => nomatch never)]; rfl)
  · have blames : blamed p s input = none := by
      rw [blamed_requesting phase answer, verdict]
    have sends : sentOff p s input = none := by
      rw [sentOff_requesting phase answer, verdict, if_neg (fun never => nomatch never)]
    rw [verdict] at taken
    cases taken
    refine ⟨?_, rfl, ?_⟩
    · unfold Standing
      dsimp only
      rw [strikes_of_none blames, throttled_of_none sends]
      refine ⟨rfl, within, ⟨rfl, free⟩, mine, ?_, usable⟩
      exact tally.forced mine usable (of_decide_eq_false first)
    · unfold rest
      rw [phase]
      show _ + 3 + 2 < _
      dsimp only
      omega
  · have left := left_reportAccountThrottled input.pool.now input.later p.cooldown there
      (eligible_later eligible later.2) (Ne.symm mine)
    rw [verdict] at taken
    dsimp only at taken
    rw [left] at taken
    cases taken
    exact struck _ true
      (fun e found _ =>
        struck_reportAccountThrottled input.pool.now input.later p.cooldown found)
      (by rw [blamed_requesting phase answer, verdict])
      (by rw [sentOff_requesting phase answer, verdict, if_pos rfl]; rfl)

theorem Usable.edited {f : CredentialEntry → CredentialEntry} (usable : Usable off id m)
    (stands : Stands good m) (mild : Mild f) (entries : m'.entries = (m.update id f).entries) :
    Usable off id m' := by
  obtain ⟨⟨e, mem, rfl, enabled⟩, on⟩ := usable
  refine ⟨⟨f e, ?_, (mild e).1, ?_⟩, on⟩
  · rw [entries]
    exact mem_update_self stands.nodup mem
  · rw [(mild e).2.1]
    exact enabled

theorem waits_of_forceStage {task : Task} (begun : 0 < forceStage task) : task.waits = true := by
  cases task with
  | forceReading _ | forceWaiting _ _ | forceRefreshing _ _ => rfl
  | _ => cases begun

theorem Forcing.cases {lock : Option Nat} {task : Task} (forcing : Forcing t id lock task) :
    0 < forceStage task ∨ task = .done ∨ task = .failed := by
  cases task with
  | done => exact .inr (.inl rfl)
  | failed => exact .inr (.inr rfl)
  | forceReading _ | forceWaiting _ _ | forceRefreshing _ _ => exact .inl (Nat.succ_pos _)
  | _ => exact forcing.elim

theorem refreshing_step {all : List Nat} {task : Task} (phase : s.phase = .refreshing l id task)
    (standing : Standing p t good model trace s)
    (taken : stepCall p env t s input = some s') : Made p t good model all trace s input s' := by
  unfold Standing at standing
  rw [phase] at standing
  obtain ⟨rfl, within, forcing, ne, tally, usable⟩ := standing
  have loads : takenUp s = none := by rw [takenUp, phase]
  have sends : sentOff p s input = none := by rw [sentOff, phase]
  have spent : roundCost all.length * (l.maxRetries - l.attempt - 1) + 1 <
      rest all.length (untaken all trace) s := by
    unfold rest
    rw [phase]
    dsimp only
    omega
  rcases forcing.cases with begun | rfl | rfl
  · have blames : blamed p s input = none := by
      rw [blamed, phase]
      cases task with
      | failed => cases begun
      | _ => rfl
    rw [stepCall_refreshing phase (waits_of_forceStage begun)] at taken
    obtain ⟨next, made, rfl⟩ := Option.map_eq_some_iff.mp taken
    obtain ⟨forcing', sooner, edit⟩ := forcing_step forcing made
    have kept : Kept (fun _ => False) s.manager next.manager ∧ Stands good next.manager ∧
        Usable (throttled p trace) id next.manager := by
      rcases edit with same | ⟨f, mild, same⟩
      · refine ⟨.same same, tally.stands.congr same, ?_, usable.on⟩
        rw [same]
        exact usable.enabled
      · exact ⟨.update same (fun e => (mild e).1)
          fun e => ⟨(mild e).2.2, fun off => (mild e).2.1.trans off⟩,
          (tally.stands.update (fun e => (mild e).1) ne.symm).congr same,
          usable.edited tally.stands mild same⟩
    obtain ⟨kept, stands, usable'⟩ := kept
    refine ⟨?_, kept.same_ids, ?_⟩
    · unfold Standing
      dsimp only
      rw [strikes_of_none blames, throttled_of_none sends]
      exact ⟨rfl, within, forcing', ne, tally.kept kept stands fun _ never => never.elim, usable'⟩
    · unfold rest
      rw [phase]
      dsimp only
      omega
  · have blames : blamed p s input = none := by rw [blamed, phase]
    unfold stepCall at taken
    rw [phase] at taken
    cases taken
    refine ⟨?_, rfl, rest_next rfl spent⟩
    unfold Standing
    dsimp only [Loop.next]
    rw [strikes_of_none blames, throttled_of_none sends]
    exact ⟨rfl, forcing, tally.stands, tally.size, tally.retries, tally.rounds, tally.each⟩
  · have left := left_reportFailure input.pool.stamp tally.stands.there tally.stands.enabled ne.symm
    have blames : blamed p s input = some id := by rw [blamed, phase]
    unfold stepCall at taken
    rw [phase] at taken
    dsimp only at taken
    rw [left] at taken
    cases taken
    obtain ⟨standing, renamed⟩ := standing_struck
      ⟨(s.manager.reportFailure id input.pool.stamp).1, s.refreshLock, l.next⟩ false
      tally rfl ne usable
      (fun e found enabled => struck_reportFailure input.pool.stamp found enabled) blames sends
      forcing rfl
    exact ⟨standing, renamed, rest_next rfl spent⟩

theorem call_step {all : List Nat} {began : Nat} (same : ids s.manager = all)
    (nonempty : 1 ≤ all.length) (standing : Standing p t good model trace s)
    (failover : p.accountThrottleFailover = true) (eligible : Eligible env began model good)
    (later : Later began s input) (answers : Answers p good.id s input)
    (steady : Steady p ((s, input) :: trace)) (taken : stepCall p env t s input = some s') :
    Made p t good model all trace s input s' := by
  cases phase : s.phase with
  | head l => exact head_step same nonempty phase standing taken
  | acquiring l task =>
    have places := standing
    unfold Standing at places
    rw [phase] at places
    obtain ⟨-, -, sound, fair, -⟩ := places
    cases waits : task.waits with
    | true => exact acquiring_step same phase waits standing eligible later answers steady taken
    | false =>
      rcases ended sound waits with rfl | ⟨model', context, rfl⟩
      · exact fair.alive.elim
      · exact returned_step phase standing answers steady taken
  | requesting l context =>
    exact requesting_step phase standing failover eligible later answers taken
  | refreshing l id task => exact refreshing_step phase standing taken
  | succeeded id =>
    unfold stepCall at taken
    rw [phase] at taken
    cases taken
  | failed =>
    unfold stepCall at taken
    rw [phase] at taken
    cases taken

theorem call_progress (standing : Standing p t good model trace s)
    (finished : ∀ id, s.phase ≠ .succeeded id) : (stepCall p env t s input).isSome = true := by
  unfold Standing at standing
  cases phase : s.phase with
  | head l =>
    unfold stepCall
    rw [phase]
    dsimp only
    split_ifs <;> rfl
  | acquiring l task =>
    rw [phase] at standing
    obtain ⟨-, -, sound, fair, -⟩ := standing
    cases waits : task.waits with
    | true =>
      rw [stepCall_acquiring phase waits, Option.isSome_map]
      exact progress sound waits
    | false =>
      rcases ended sound waits with rfl | ⟨model', context, rfl⟩
      · exact fair.alive.elim
      · unfold stepCall
        rw [phase]
        dsimp only
        split <;> rfl
  | requesting l context =>
    unfold stepCall
    rw [phase]
    rfl
  | refreshing l id task =>
    rw [phase] at standing
    obtain ⟨-, -, forcing, -⟩ := standing
    rcases forcing.cases with begun | rfl | rfl
    · rw [stepCall_refreshing phase (waits_of_forceStage begun), Option.isSome_map]
      exact forcing_progress forcing begun
    · unfold stepCall
      rw [phase]
      rfl
    · unfold stepCall
      rw [phase]
      rfl
  | succeeded id => exact absurd phase (finished id)
  | failed =>
    rw [phase] at standing
    exact standing.elim

/-- A call comes to a credential that works, in boundedly many steps, whenever every other
credential answers with failures only, the ids are distinct and the run is steady. -/
theorem call_reaches_working {policy : RetryPolicy} {began : Nat}
    (effective : RetryPolicy.effective p.retryMode p.retryPolicy = .ok policy)
    (retries : 4 ≤ policy.maxRequestRetries)
    (total : m.entries.length * policy.maxRequestRetries ≤ maxTotalRetries)
    (failover : p.accountThrottleFailover = true) (there : good ∈ m.entries)
    (eligible : Eligible env began model good)
    (run : Run (stepCall p env t) (p.call m model) trace s) (later : Guarded (Later began) trace)
    (answers : Guarded (Answers p good.id) trace) (nodup : (ids m).Nodup)
    (steady : Steady p trace) :
    s.phase ≠ .failed ∧
      trace.length ≤
        roundCost m.entries.length * (m.entries.length * policy.maxRequestRetries) + 1 ∧
      ((∀ id, s.phase ≠ .succeeded id) → ∀ input, (stepCall p env t s input).isSome = true) := by
  have nonempty : 1 ≤ m.entries.length := List.length_pos_of_mem there
  have length : (ids m).length = m.entries.length := List.length_map _
  have size : maxRetries m.entries.length policy =
      m.entries.length * policy.maxRequestRetries := by
    unfold maxRetries
    rw [Nat.max_eq_left nonempty, Nat.min_eq_left total]
  have along : Standing p t good model trace s ∧ ids s.manager = ids m ∧
      trace.length + rest (ids m).length (untaken (ids m) trace) s ≤
        roundCost m.entries.length * (m.entries.length * policy.maxRequestRetries) + 1 := by
    induction run with
    | nil =>
      unfold Provider.call
      rw [effective]
      refine ⟨⟨rfl, rfl, ⟨nodup, there, eligible.enabled⟩, size, retries, Nat.zero_le _, ?_⟩, rfl,
        ?_⟩
      · intro e _ _
        exact Nat.le_trans (Nat.le_of_eq (Nat.zero_add _)) (allowance_le _ _)
      · show 0 + (roundCost (ids m).length * (maxRetries m.entries.length policy - 0) + 1) ≤ _
        rw [size, length, Nat.sub_zero, Nat.zero_add]
    | cons run taken ih =>
      obtain ⟨standing, same, bound⟩ := ih later.tail answers.tail steady.1
      obtain ⟨standing', same', fewer⟩ := call_step same (by rw [length]; exact nonempty) standing
        failover eligible later.head answers.head steady taken
      refine ⟨standing', same'.trans same, ?_⟩
      rw [List.length_cons]
      omega
  obtain ⟨standing, -, bound⟩ := along
  refine ⟨?_, Nat.le_trans (Nat.le_add_right _ _) bound, fun finished input =>
    call_progress standing finished⟩
  intro lost
  unfold Standing at standing
  rw [lost] at standing
  exact standing

def twoKeys : MultiTokenManager where
  config := ⟨"us-east-1", none, none⟩
  entries :=
    [{ id := 1, credentials := { kiroApiKey := some "ksk_1" } },
      { id := 2, credentials := { kiroApiKey := some "ksk_2", priority := 1 } }]
  currentId := 1
  loadBalancingMode := "priority"
  enterpriseProfileFetchAttempted := []

/-- The policy `polite`, and the shortest cooldown that the panel accepts. The bodies below are no
JSON. -/
def polite : Provider := ⟨fun _ => none, ["ide", "cli"], "ide", .polite, none, true, 1⟩

def suspicious : String :=
  "Due to suspicious activity, we are imposing temporary limits on how frequently your account " ++
    "can send a request to Kiro while we investigate."

def threeKeys : MultiTokenManager :=
  { twoKeys with
    entries := twoKeys.entries ++
      [{ id := 3, credentials := { kiroApiKey := some "ksk_3", priority := 2 } }] }

def awaits : Phase → Bool
  | .requesting _ _ | .acquiring _ (.refreshing _ _ _) | .acquiring _ (.fetchingProfile _ _ _ _)
  | .refreshing _ _ (.forceRefreshing _ _) => true
  | _ => false

/-- A step that waits for nobody is taken when the step before it is over. -/
def FollowsAtOnce (step earlier : CallState × CallInput) : Prop :=
  earlier.2.later ≤ step.2.pool.now ∧
    (awaits step.1.phase = false → step.2.pool.now = earlier.2.later)

instance : DecidableRel FollowsAtOnce := fun _ _ => by
  unfold FollowsAtOnce
  infer_instance

/-- Time passes in the call only while an answer is awaited. -/
structure Prompt (trace : List (CallState × CallInput)) : Prop where
  atOnce : trace.IsChain FollowsAtOnce
  within : ∀ step ∈ trace, step.2.later = step.2.pool.now

/-- The steps of an attempt that begins at a second and whose answer, the throttling of the account,
comes a second later. -/
def throttledAttempt (steps second : Nat) : List CallInput :=
  List.replicate steps { pool := { now := second * 1000 }, later := second * 1000 } ++
    [{ pool := { now := (second + 1) * 1000 }, answer := .response 429 suspicious none,
       later := (second + 1) * 1000 }]

def inTurnInputs : List CallInput :=
  throttledAttempt 5 0 ++
    (List.range 11).flatMap (fun k => throttledAttempt 7 (k + 1)) ++
    [{ pool := { now := 12000 }, later := 12000 }]

theorem inTurn_run :
    ((follow (stepCall polite plainEnv 0) [] (polite.call threeKeys none) inTurnInputs).any
      fun reached =>
        (reached.1.all (fun step => decide (Answers polite 3 step.1 step.2) &&
          step.2.later == step.2.pool.now) &&
        decide (reached.1.IsChain FollowsAtOnce)) && reached.2.phase == .failed) = true := by
  decide +kernel

/-- The first two accounts are throttled in turn, for a second each, while the other one is asked;
all twelve attempts go to them, and the third account is not asked. -/
theorem cooldown_hides_working : ¬ ∀ (env : Env) (p : Provider) (t : Nat) (m : MultiTokenManager)
    (model : Option String) (policy : RetryPolicy) (good : CredentialEntry) (began : Nat)
    (trace : List (CallState × CallInput)) (s : CallState),
    RetryPolicy.effective p.retryMode p.retryPolicy = .ok policy → 4 ≤ policy.maxRequestRetries →
    m.entries.length * policy.maxRequestRetries ≤ maxTotalRetries →
    p.accountThrottleFailover = true → (ids m).Nodup → good ∈ m.entries →
    Eligible env began model good → Run (stepCall p env t) (p.call m model) trace s →
    Guarded (Later began) trace → Prompt trace → Guarded (Answers p good.id) trace →
    s.phase ≠ .failed := by
  intro claim
  obtain ⟨reached, followed, holds⟩ := (Option.any_eq_true _ _).mp inTurn_run
  simp only [Bool.and_eq_true, List.all_eq_true, decide_eq_true_eq, beq_iff_eq] at holds
  obtain ⟨⟨each, atOnce⟩, lost⟩ := holds
  obtain ⟨run, -⟩ := follow_run .nil followed
  refine claim plainEnv polite 0 threeKeys none (RetryPolicy.preset .polite)
    { id := 3, credentials := { kiroApiKey := some "ksk_3", priority := 2 } } 0 reached.1 reached.2
    rfl (Nat.le_refl 4) (by decide) rfl (by decide) (by simp [threeKeys])
    (eligible_of_plain rfl rfl rfl) run ?_ ⟨atOnce, fun step mem => (each step mem).2⟩
    (fun step mem => (each step mem).1) lost
  exact fun step _ => ⟨Nat.zero_le _, Nat.zero_le _⟩

theorem steady_of_none (none : ∀ step ∈ trace, sentOff p step.1 step.2 = none ∧
    takenUp step.1 = none) : Steady p trace := by
  induction trace with
  | nil => trivial
  | cons step trace ih =>
    have earlier : ∀ step ∈ trace, sentOff p step.1 step.2 = .none ∧ takenUp step.1 = .none :=
      fun step mem => none step (List.mem_cons_of_mem _ mem)
    refine ⟨ih earlier, fun l task _ => ⟨fun id _ => ?_, fun id takes => ?_⟩⟩
    · unfold throttled
      rw [List.any_eq_false]
      intro step mem
      rw [(earlier step mem).1]
      exact fun never => nomatch never
    · rw [(none step List.mem_cons_self).2] at takes
      cases takes

def quotaInputs : List CallInput :=
  List.replicate 6 { answer := .response 402 "MONTHLY_REQUEST_COUNT" none } ++
    List.replicate 6 { answer := .response 200 "" none }

theorem quota_run :
    ((follow (stepCall polite plainEnv 0) [] (polite.call twoKeys none) quotaInputs).any
      fun reached =>
        reached.1.all (fun step => decide (Answers polite 2 step.1 step.2) &&
          (sentOff polite step.1 step.2 == none && takenUp step.1 == none)) &&
        reached.2.phase == .succeeded 2) = true := by
  decide +kernel

theorem call_reaches_working_quota : ∃ trace s,
    Run (stepCall polite plainEnv 0) (polite.call twoKeys none) trace s ∧
      s.phase = .succeeded 2 ∧ s.phase ≠ .failed := by
  obtain ⟨reached, followed, holds⟩ := (Option.any_eq_true _ _).mp quota_run
  simp only [Bool.and_eq_true, List.all_eq_true, decide_eq_true_eq, beq_iff_eq] at holds
  obtain ⟨each, found⟩ := holds
  obtain ⟨run, -⟩ := follow_run .nil followed
  refine ⟨reached.1, reached.2, run, found, ?_⟩
  have effective : RetryPolicy.effective polite.retryMode polite.retryPolicy =
      .ok (RetryPolicy.preset .polite) := rfl
  have eligible : Eligible plainEnv 0 none
      { id := 2, credentials := { kiroApiKey := some "ksk_2", priority := 1 } } :=
    eligible_of_plain rfl rfl rfl
  exact (call_reaches_working effective (Nat.le_refl 4) (by decide) rfl
    (List.mem_cons_of_mem _ List.mem_cons_self) eligible run
    (fun step _ => ⟨Nat.zero_le _, Nat.zero_le _⟩) (fun step mem => (each step mem).1) (by decide)
    (steady_of_none fun step mem => (each step mem).2)).1

end KiroRs.Pool.FailoverRuns
