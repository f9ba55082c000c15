/- Path: KiroRs/Pool/CurrentId
   source: src/kiro/token_manager.rs
   digest: The id of the current entry under threads whose lock sections interleave: when it is that
   of an entry of the pool, and when that of the best one. -/

import KiroRs.Pool.Administration
import KiroRs.Pool.SelfHealing

set_option autoImplicit false
set_option relaxedAutoImplicit false

namespace KiroRs.Pool.CurrentId

open KiroRs.Lib.Traces
open KiroRs.Pool.Credentials
open KiroRs.Pool.Manager
open KiroRs.Pool.Manager.MultiTokenManager
open KiroRs.Pool.Tasks
open KiroRs.Pool.Startup (Sources)
open KiroRs.Pool.Selection (plainEnv)
open KiroRs.Pool.ManualDisable (ids ids_update)
open KiroRs.Pool.Changes
open KiroRs.Pool.Invariants (ids_of_changes new_ok)

def followUps (m : MultiTokenManager) : Operation → List Operation
  | .setPriority id priority =>
    if (m.setPriorityOf id priority).isOk then [.selectHighestPriority] else []
  | .deleteEntry id =>
    match m.deleteEntry id with
    | .error _ => []
    | .ok deleted =>
      if deleted.2 then [.selectHighestPriority, .resetCurrentIfEmpty] else [.resetCurrentIfEmpty]
  | _ => []

def begins : Operation → Bool
  | .selectHighestPriority | .resetCurrentIfEmpty => false
  | _ => true

/-- The pool, and the sections that each thread still has to run. -/
structure Threads where
  system : System
  pending : Nat → List Operation

/-- A call of the pool goes on, a thread begins an operation, or it runs its next section. -/
inductive Move where
  | act (a : Action)
  | call (n : Nat) (op : Operation)
  | resume (n : Nat)

def isOperation : Action → Bool
  | .operation _ => true
  | _ => false

/-- Run a section in thread `n`, and leave the rest for later. -/
def Threads.section_ (env : Env) (s : Threads) (n : Nat) (op : Operation)
    (rest : List Operation) : Threads where
  system := { s.system with manager := op.apply env s.system.manager }
  pending := Function.update s.pending n rest

def Threads.step (env : Env) (s : Threads) : Move → Option Threads
  | .act a =>
    if isOperation a then none
    else (s.system.step env a).map fun system => { s with system := system }
  | .call n op =>
    match s.pending n with
    | [] => if begins op then some (s.section_ env n op (followUps s.system.manager op)) else none
    | _ :: _ => none
  | .resume n =>
    match s.pending n with
    | [] => none
    | op :: rest => some (s.section_ env n op rest)

def Threads.initial (m : MultiTokenManager) : Threads := ⟨System.initial m, fun _ => []⟩

abbrev ThreadRun (env : Env) (m : MultiTokenManager) (trace : List (Threads × Move))
    (s : Threads) : Prop := Run (Threads.step env) (Threads.initial m) trace s

variable {env : Env} {m : MultiTokenManager} {s s' : Threads} {move : Move}

theorem step_system (step : s.step env move = some s') :
    ∃ a, s.system.step env a = some s'.system := by
  cases move with
  | act a =>
    unfold Threads.step at step
    dsimp only at step
    split_ifs at step
    obtain ⟨system, taken, rfl⟩ := Option.map_eq_some_iff.mp step
    exact ⟨a, taken⟩
  | call n op =>
    unfold Threads.step at step
    dsimp only at step
    split at step
    · split_ifs at step
      cases step
      exact ⟨.operation op, rfl⟩
    · cases step
  | resume n =>
    unfold Threads.step at step
    dsimp only at step
    split at step
    · cases step
    · next op rest _ =>
      cases step
      exact ⟨.operation op, rfl⟩

theorem poolRun_of_threads {trace : List (Threads × Move)} (run : ThreadRun env m trace s) :
    ∃ trace, PoolRun env m trace s.system := by
  induction run with
  | nil => exact ⟨[], .nil⟩
  | cons run taken ih =>
    obtain ⟨trace, before⟩ := ih
    obtain ⟨a, step⟩ := step_system taken
    exact ⟨_, before.cons step⟩

theorem deleteCredential_sections (file : Administration.CredentialsFile) (id : Nat) :
    (Administration.deleteCredential file m id).1 =
      (followUps m (.deleteEntry id)).foldl (Operation.apply env ·)
        ((Operation.deleteEntry id).apply env m) := by
  unfold Administration.deleteCredential followUps Operation.apply
  dsimp only
  cases m.deleteEntry id with
  | error message => rfl
  | ok deleted =>
    obtain ⟨left, current⟩ := deleted
    cases current <;> rfl

theorem setPriority_sections (file : Administration.CredentialsFile) (id priority : Nat) :
    (Administration.setPriority file m id priority).1 =
      (followUps m (.setPriority id priority)).foldl (Operation.apply env ·)
        ((Operation.setPriority id priority).apply env m) := by
  unfold Administration.setPriority followUps Operation.apply
  dsimp only
  cases m.setPriorityOf id priority <;> rfl

def Named (m : MultiTokenManager) : Prop := m.currentId ∈ ids m

/-- The current entry is enabled and of smallest priority value, if any entry is enabled. -/
def Best (m : MultiTokenManager) : Prop :=
  (∃ e ∈ m.entries, e.disabled = false) →
    ∃ e ∈ m.entries, e.id = m.currentId ∧ e.disabled = false ∧
      ∀ other ∈ m.entries, other.disabled = false →
        e.credentials.priority ≤ other.credentials.priority

def reports (s : Threads) : Move → Bool
  | .call _ (.reportFailure _ _) | .call _ (.reportQuotaExhausted _ _)
  | .call _ (.reportRefreshFailure _ _) | .call _ (.reportRefreshTokenInvalid _ _) => true
  | .act (.task t _) =>
    match s.system.tasks t with
    | .reportingInvalid _ _ | .reportingFailure _ _ => true
    | _ => false
  | _ => false

def Disables (m m' : MultiTokenManager) : Prop :=
  ∃ id e e', m.find id = some e ∧ e.disabled = false ∧ m'.find id = some e' ∧ e'.disabled = true

/-- Thread `n` begins nothing new. -/
def goesOn (n : Nat) : Move → Prop
  | .call k _ => k ≠ n
  | _ => True

/-- Thread `n` began the operation in the state `before`, went through the given steps since and
took the last one. -/
structure Takes (n : Nat) (op : Operation) (before : Threads)
    (later trace : List (Threads × Move)) : Prop where
  from_ : ∃ earlier, trace = later ++ (before, .call n op) :: earlier
  since : ∀ p ∈ later, goesOn n p.2
  last : ∀ p ∈ later.head?, p.2 = .resume n

/-- While no deletion is under way the current id is 0 or that of an entry. It is that of the best
entry behind the last section of a priority change; behind the choice that follows the deletion of
the current entry, and behind its last section too where it was the best before it, as when nothing
comes in between; and where a report disables an entry. -/
structure PointsWell (env : Env) (trace : List (Threads × Move)) (s : Threads) : Prop where
  named : (∀ n, Operation.resetCurrentIfEmpty ∉ s.pending n) →
    s.system.manager.currentId = 0 ∨ Named s.system.manager
  prioritized : ∀ n id priority before later,
    Takes n (.setPriority id priority) before later trace → id ∈ ids before.system.manager →
    s.pending n = [] → Best s.system.manager
  chosen : ∀ n before later e,
    Takes n (.deleteEntry before.system.manager.currentId) before later trace →
    before.system.manager.find before.system.manager.currentId = some e → e.disabled = true →
    s.pending n = [.resetCurrentIfEmpty] → Best s.system.manager
  deleted : ∀ n before later e,
    Takes n (.deleteEntry before.system.manager.currentId) before later trace →
    before.system.manager.find before.system.manager.currentId = some e → e.disabled = true →
    (∀ p ∈ later, p.2 = .resume n) → s.pending n = [] → Best s.system.manager
  kept : ∀ n rest s', s.pending n = .resetCurrentIfEmpty :: rest →
    s.step env (.resume n) = some s' → Best s.system.manager → Best s'.system.manager
  reported : ∀ move s', reports s move = true → s.step env move = some s' →
    Disables s.system.manager s'.system.manager → Best s'.system.manager

/-- The thread has deleted the current entry and looks for another. -/
def Seeks (s : Threads) (n : Nat) : Prop :=
  s.pending n = [.selectHighestPriority, .resetCurrentIfEmpty]

/-- Where the current entry was deleted, one of those left is enabled; a call does not switch to an
entry that is gone; and none is added to a pool that was emptied before its current id is reset. -/
def Steady (s : Threads) : Move → Prop
  | .resume n => Seeks s n → s.system.manager.entries = [] ∨
      s.system.manager.anyEnabled = true ∨ Named s.system.manager
  | .act (.task t _) =>
    match s.system.tasks t with
    | .switching _ id _ => id ∈ ids s.system.manager
    | .addPushing id _ => s.system.manager.entries = [] →
        s.system.manager.currentId = 0 ∨ s.system.manager.currentId = id ∨ ∃ n, Seeks s n
    | _ => True
  | _ => True

theorem bestEnabled_cases (m : MultiTokenManager) (test : CredentialEntry → Bool) :
    (m.bestEnabled test = none ∧ ∀ e ∈ m.entries, e.disabled = false → test e = false) ∨
    ∃ e ∈ m.entries, m.bestEnabled test = some e ∧ e.disabled = false ∧
      ∀ other ∈ m.entries, other.disabled = false → test other = true →
        e.credentials.priority ≤ other.credentials.priority := by
  have passes (e : CredentialEntry) : e ∈ m.entries.filter (fun e => !e.disabled && test e) ↔
      e ∈ m.entries ∧ e.disabled = false ∧ test e = true := by
    rw [List.mem_filter, Bool.and_eq_true, Bool.not_eq_true']
  cases best : m.bestEnabled test with
  | none =>
    refine .inl ⟨rfl, fun e mem enabled => ?_⟩
    have empty := List.argmin_eq_none.mp best
    by_contra passing
    have there := (passes e).mpr ⟨mem, enabled, Bool.eq_true_of_not_eq_false passing⟩
    rw [empty] at there
    cases there
  | some e =>
    have chosen : e ∈ (m.entries.filter fun e => !e.disabled && test e).argmin
      (·.credentials.priority) := best
    obtain ⟨mem, enabled, -⟩ := (passes e).mp (List.argmin_mem chosen)
    refine .inr ⟨e, mem, rfl, enabled, fun other there on passing => ?_⟩
    have least := List.le_of_mem_argmin ((passes other).mpr ⟨there, on, passing⟩) chosen
    exact least

theorem best_switchToBest (m : MultiTokenManager) : Best m.switchToBest := by
  rintro ⟨e, mem, enabled⟩
  rw [entries_switchToBest] at mem ⊢
  rcases bestEnabled_cases m fun _ => true with ⟨-, none⟩ |
    ⟨best, there, chosen, on, least⟩
  · cases none e mem enabled
  · refine ⟨best, there, ?_, on, fun other mem enabled => least other mem enabled rfl⟩
    unfold switchToBest
    rw [chosen]

def Moves (m m' : MultiTokenManager) : Prop := m'.currentId = m.currentId ∨ Named m'

theorem moves_switchToBest (m : MultiTokenManager) : Moves m m.switchToBest := by
  unfold switchToBest
  rcases bestEnabled_cases m fun _ => true with ⟨none, -⟩ | ⟨best, there, chosen, -⟩
  · rw [none]
    exact .inl rfl
  · rw [chosen]
    exact .inr (List.mem_map_of_mem there)

theorem named_switchToBest (enabled : m.anyEnabled = true) : Named m.switchToBest := by
  unfold anyEnabled at enabled
  obtain ⟨e, mem, on⟩ := List.any_eq_true.mp enabled
  rw [Bool.not_eq_true'] at on
  obtain ⟨best, there, here, -⟩ := best_switchToBest m
    ⟨e, by rw [entries_switchToBest]; exact mem, on⟩
  unfold Named
  rw [← here]
  exact List.mem_map_of_mem there

/-- A report leaves the pool alone, changes one entry without disabling it, or chooses the best
entry. -/
inductive Reported (m : MultiTokenManager) : MultiTokenManager → Prop where
  | ignored : Reported m m
  | counted (id : Nat) (f : CredentialEntry → CredentialEntry) (keeps : ∀ e, (f e).id = e.id)
      (same : ∀ e, (f e).disabled = e.disabled) : Reported m (m.update id f)
  | switched (left : MultiTokenManager) (same : left.currentId = m.currentId) :
      Reported m left.switchToBest

theorem reported_onEnabled {id : Nat} {report : CredentialEntry → MultiTokenManager × Bool}
    (each : ∀ e, m.find id = some e → Reported m (report e).1) :
    Reported m (m.onEnabled id report).1 := by
  unfold onEnabled
  split
  · exact .ignored
  · next e found =>
    split_ifs
    · exact .ignored
    · exact each e found

theorem reported_reportFailure (id : Nat) (stamp : String) :
    Reported m (m.reportFailure id stamp).1 := by
  refine reported_onEnabled fun e _ => ?_
  dsimp only
  split_ifs
  · exact .switched _ rfl
  · exact .counted id _ (fun _ => rfl) fun _ => rfl

theorem reported_reportQuotaExhausted (id : Nat) (stamp : String) :
    Reported m (m.reportQuotaExhausted id stamp).1 :=
  reported_onEnabled fun _ _ => .switched _ rfl

theorem reported_reportRefreshFailure (id : Nat) (stamp : String) :
    Reported m (m.reportRefreshFailure id stamp).1 := by
  refine reported_onEnabled fun e _ => ?_
  dsimp only
  split_ifs
  · exact .counted id _ (fun _ => rfl) fun _ => rfl
  · exact .switched _ rfl

theorem reported_reportRefreshTokenInvalid (id : Nat) (stamp : String) :
    Reported m (m.reportRefreshTokenInvalid id stamp).1 :=
  reported_onEnabled fun _ _ => .switched _ rfl

theorem Reported.best {m' : MultiTokenManager} (reported : Reported m m')
    (disables : Disables m m') : Best m' := by
  obtain ⟨id, e, e', found, enabled, found', disabled⟩ := disables
  cases reported with
  | ignored =>
    rw [found] at found'
    cases found'
    rw [enabled] at disabled
    cases disabled
  | counted id' f keeps same =>
    rw [find_update keeps] at found'
    split_ifs at found' with here
    · rw [← here, found] at found'
      cases found'
      rw [same, enabled] at disabled
      cases disabled
    · rw [found] at found'
      cases found'
      rw [enabled] at disabled
      cases disabled
  | switched left => exact best_switchToBest left

theorem Reported.moves {m' : MultiTokenManager} (reported : Reported m m') : Moves m m' := by
  cases reported with
  | ignored | counted => exact .inl rfl
  | switched left same =>
    rcases moves_switchToBest left with kept | named
    · exact .inl (kept.trans same)
    · exact .inr named

theorem moves_settle {result : Except String MultiTokenManager}
    (same : ∀ m', result = .ok m' → m'.currentId = m.currentId) : Moves m (settle m result) := by
  cases result with
  | error message => exact .inl rfl
  | ok m' => exact .inl (same m' rfl)

theorem moves_editEntry {id : Nat} {f : CredentialEntry → CredentialEntry} :
    Moves m (settle m (m.editEntry id f)) := by
  refine moves_settle fun m' ok => ?_
  unfold editEntry at ok
  split at ok
  · cases ok
  · cases ok
    rfl

theorem named_of_best {current : MultiTokenManager} {test : CredentialEntry → Bool}
    {next : CredentialEntry} (best : current.bestEnabled test = some next) :
    Named { current with currentId := next.id } := by
  rcases bestEnabled_cases current test with ⟨none, -⟩ | ⟨e, there, chosen, -⟩
  · rw [none] at best
    cases best
  · rw [chosen] at best
    cases best
    exact List.mem_map_of_mem there

/-- No section but the last of a deletion leaves the current id with an id of no entry. -/
theorem moves_apply {op : Operation} (kept : op ≠ .resetCurrentIfEmpty) :
    Moves m (op.apply env m) := by
  cases op with
  | reportSuccess | updateGlobalConfigRuntime => exact .inl rfl
  | reportFailure id stamp => exact (reported_reportFailure id stamp).moves
  | reportQuotaExhausted id stamp => exact (reported_reportQuotaExhausted id stamp).moves
  | reportRefreshFailure id stamp => exact (reported_reportRefreshFailure id stamp).moves
  | reportRefreshTokenInvalid id stamp => exact (reported_reportRefreshTokenInvalid id stamp).moves
  | switchToNext =>
    unfold Operation.apply switchToNext
    dsimp only
    split
    · next next best => exact .inr (named_of_best best)
    · exact .inl rfl
  | reportAccountThrottled => exact .inl rfl
  | reportRateLimited id now later cooldown =>
    unfold Operation.apply reportRateLimited
    dsimp only
    split_ifs
    · split
      · next next best => exact .inr (named_of_best best)
      · exact .inl rfl
    · exact .inl rfl
  | setDisabled | clearThrottle | disableQuotaExceeded | setPriority | setEndpoint
  | updateCredential | updateAuthMetadata => exact moves_editEntry
  | selectHighestPriority => exact moves_switchToBest m
  | resetAndEnable id =>
    refine moves_settle fun m' ok => ?_
    unfold resetAndEnable at ok
    split at ok
    · cases ok
    · split_ifs at ok
      cases ok
      rfl
  | resetSuccessCount id =>
    cases id with
    | some id => exact moves_editEntry
    | none => exact .inl rfl
  | deleteEntry id =>
    refine moves_settle fun m' ok => ?_
    unfold deleteEntry at ok
    split at ok
    · cases ok
    · split_ifs at ok
      · cases ok
      · cases ok
        rfl
  | resetCurrentIfEmpty => exact absurd rfl kept
  | updateRefreshToken id token access expires =>
    refine moves_settle fun m' ok => ?_
    obtain ⟨-, -, -, -, -, -, rfl⟩ := updateRefreshToken_ok ok
    rfl
  | setLoadBalancingMode mode =>
    refine moves_settle fun m' ok => ?_
    unfold setLoadBalancingMode at ok
    split_ifs at ok
    cases ok
    rfl

theorem ids_apply {op : Operation} (kept : ∀ id, op ≠ .deleteEntry id) :
    ids (op.apply env m) = ids m :=
  ids_of_changes (forall₂_apply (s := System.initial m) (a := .operation op) rfl kept)

theorem moves_stepTask {t : Nat} {input : Input} {lock : Option Nat} {task : Task} {next : Next}
    (step : stepTask env t input m lock task = some next)
    (kept : ∀ a id c, task ≠ .switching a id c) : Moves m next.manager := by
  cases task with
  | switching a id c => exact absurd rfl (kept a id c)
  | reportingInvalid a id =>
    cases step
    exact (reported_reportRefreshTokenInvalid id input.stamp).moves
  | reportingFailure a id =>
    cases step
    exact (reported_reportRefreshFailure id input.stamp).moves
  | _ =>
    simp only [stepTask] at step
    repeat' split at step
    all_goals first
      | cases step
        exact .inl rfl
      | cases step

/-- A thread that has deleted entries will still choose a current one, or reset the current id. -/
def Repaired (s : Threads) : Prop :=
  (∃ n, Seeks s n) ∨
    s.system.manager.entries = [] ∧ ∃ n, s.pending n = [.resetCurrentIfEmpty]

def Rests (m : MultiTokenManager) : Prop := m.currentId = 0 ∨ Named m

structure Repairs (s : Threads) : Prop where
  rest : ∀ n, ∀ op ∈ s.pending n, op = .selectHighestPriority ∨ op = .resetCurrentIfEmpty
  rests : Rests s.system.manager ∨ Repaired s

theorem Rests.moves {m' : MultiTokenManager} (rests : Rests m) (moves : Moves m m')
    (same : ids m' = ids m) : Rests m' := by
  rcases moves with kept | named
  · rcases rests with zero | named
    · exact .inl (kept.trans zero)
    · refine .inr ?_
      unfold Named at named ⊢
      rwa [kept, same]
  · exact .inr named

theorem entries_nil_of_ids {m' : MultiTokenManager} (same : ids m' = ids m)
    (none : m.entries = []) : m'.entries = [] := by
  unfold ids at same
  rw [none] at same
  exact List.map_eq_nil_iff.mp same

theorem mem_followUps {op other : Operation} (mem : other ∈ followUps m op) :
    other = .selectHighestPriority ∨ other = .resetCurrentIfEmpty := by
  unfold followUps at mem
  split at mem
  · split_ifs at mem
    · exact .inl (List.mem_singleton.mp mem)
    · cases mem
  · split at mem
    · cases mem
    · split_ifs at mem
      · rcases List.mem_cons.mp mem with first | second
        · exact .inl first
        · exact .inr (List.mem_singleton.mp second)
      · exact .inr (List.mem_singleton.mp mem)
  · cases mem

theorem rest_section {n : Nat} {op : Operation} {rest : List Operation} (inv : Repairs s)
    (only : ∀ other ∈ rest, other = .selectHighestPriority ∨ other = .resetCurrentIfEmpty) :
    ∀ k, ∀ other ∈ (s.section_ env n op rest).pending k,
      other = .selectHighestPriority ∨ other = .resetCurrentIfEmpty := by
  intro k other mem
  unfold Threads.section_ at mem
  dsimp only at mem
  by_cases here : k = n
  · rw [here, Function.update_self] at mem
    exact only other mem
  · rw [Function.update_of_ne here] at mem
    exact inv.rest k other mem

theorem Repaired.other {n : Nat} {op : Operation} {rest : List Operation}
    (idle : ¬ Seeks s n) (last : s.pending n ≠ [.resetCurrentIfEmpty]) (repaired : Repaired s)
    (empty : s.system.manager.entries = [] → (op.apply env s.system.manager).entries = []) :
    Repaired (s.section_ env n op rest) := by
  have still (k : Nat) (ne : k ≠ n) : (s.section_ env n op rest).pending k = s.pending k :=
    Function.update_of_ne ne ..
  rcases repaired with ⟨k, seeks⟩ | ⟨none, k, resets⟩
  · refine .inl ⟨k, (still k ?_).trans seeks⟩
    rintro rfl
    exact idle seeks
  · refine .inr ⟨empty none, k, (still k ?_).trans resets⟩
    rintro rfl
    exact last resets

theorem not_seeks_of_idle {n : Nat} (idle : s.pending n = []) :
    ¬ Seeks s n ∧ s.pending n ≠ [.resetCurrentIfEmpty] := by
  unfold Seeks
  rw [idle]
  constructor
  · intro never
    cases never
  · intro never
    cases never

theorem deleteEntry_cases (env : Env) (m : MultiTokenManager) (id : Nat) :
    (Operation.deleteEntry id).apply env m = m ∧ followUps m (.deleteEntry id) = [] ∨
    (Operation.deleteEntry id).apply env m =
        { m with entries := m.entries.filter (·.id != id) } ∧
      followUps m (.deleteEntry id) =
        if m.currentId == id then [.selectHighestPriority, .resetCurrentIfEmpty]
        else [.resetCurrentIfEmpty] := by
  unfold Operation.apply followUps deleteEntry
  dsimp only
  cases m.find id with
  | none => exact .inl ⟨rfl, rfl⟩
  | some e =>
    dsimp only
    cases e.disabled with
    | false => exact .inl ⟨rfl, rfl⟩
    | true => exact .inr ⟨rfl, rfl⟩

theorem repairs_delete {n id : Nat} (inv : Repairs s) (idle : s.pending n = []) :
    Rests ((Operation.deleteEntry id).apply env s.system.manager) ∨
      Repaired (s.section_ env n (.deleteEntry id)
        (followUps s.system.manager (.deleteEntry id))) := by
  obtain ⟨not_seeks, not_last⟩ := not_seeks_of_idle idle
  rcases deleteEntry_cases env s.system.manager id with ⟨same, -⟩ | ⟨left, follow⟩
  · rw [same]
    refine inv.rests.imp_right fun repaired => repaired.other not_seeks not_last fun none => ?_
    rw [same, none]
  · by_cases current : s.system.manager.currentId = id
    · refine .inr (.inl ⟨n, ?_⟩)
      unfold Seeks Threads.section_
      dsimp only
      rw [Function.update_self, follow, if_pos (beq_iff_eq.mpr current)]
    · rcases inv.rests with rests | repaired
      · refine .inl ?_
        rw [left]
        refine rests.imp_right fun named => ?_
        obtain ⟨e, mem, here⟩ := List.mem_map.mp named
        refine List.mem_map.mpr ⟨e, List.mem_filter.mpr ⟨mem, ?_⟩, here⟩
        rw [bne_iff_ne, here]
        exact current
      · refine .inr (repaired.other not_seeks not_last fun none => ?_)
        rw [left]
        dsimp only
        rw [none]
        rfl

theorem repairs_call {n : Nat} {op : Operation} (inv : Repairs s)
    (step : s.step env (.call n op) = some s') : Repairs s' := by
  unfold Threads.step at step
  dsimp only at step
  cases idle : s.pending n with
  | cons _ _ =>
    rw [idle] at step
    cases step
  | nil =>
    rw [idle] at step
    dsimp only at step
    split_ifs at step with starts
    cases step
    refine ⟨rest_section inv fun other mem => mem_followUps mem, ?_⟩
    by_cases deletes : ∃ id, op = .deleteEntry id
    · obtain ⟨id, rfl⟩ := deletes
      exact repairs_delete inv idle
    · have same : ids (op.apply env s.system.manager) = ids s.system.manager :=
        ids_apply fun id eq => deletes ⟨id, eq⟩
      have moves : Moves s.system.manager (op.apply env s.system.manager) := by
        refine moves_apply ?_
        rintro rfl
        cases starts
      obtain ⟨not_seeks, not_last⟩ := not_seeks_of_idle idle
      rcases inv.rests with rests | repaired
      · exact .inl (rests.moves moves same)
      · exact .inr (repaired.other not_seeks not_last (entries_nil_of_ids same))

theorem repairs_resume {n : Nat} (inv : Repairs s) (steady : Steady s (.resume n))
    (step : s.step env (.resume n) = some s') : Repairs s' := by
  unfold Threads.step at step
  dsimp only at step
  cases left : s.pending n with
  | nil =>
    rw [left] at step
    cases step
  | cons op rest =>
    rw [left] at step
    cases step
    have only := inv.rest n
    rw [left] at only
    refine ⟨rest_section inv fun other mem => only other (List.mem_cons_of_mem _ mem), ?_⟩
    rcases only op List.mem_cons_self with rfl | rfl
    · -- The choice: what this thread owes is paid, unless the pool is empty.
      have same : ids (Operation.selectHighestPriority.apply env s.system.manager) =
          ids s.system.manager := ids_apply fun id eq => by cases eq
      have moves := moves_switchToBest s.system.manager
      by_cases seeks : Seeks s n
      · rcases steady seeks with none | enabled | named
        · refine .inr (.inr ⟨entries_nil_of_ids same none, n, ?_⟩)
          unfold Seeks at seeks
          rw [left] at seeks
          cases seeks
          exact Function.update_self ..
        · exact .inl (.inr (named_switchToBest enabled))
        · exact .inl (Rests.moves (.inr named) moves same)
      · rcases inv.rests with rests | repaired
        · exact .inl (rests.moves moves same)
        · refine .inr (repaired.other seeks ?_ (entries_nil_of_ids same))
          rw [left]
          intro never
          cases never
    · -- The last section: the current id is reset where nothing is left.
      show Rests (s.system.manager.resetCurrentIfEmpty) ∨ _
      by_cases none : s.system.manager.entries = []
      · refine .inl (.inl ?_)
        unfold resetCurrentIfEmpty
        rw [if_pos none]
      · have same : s.system.manager.resetCurrentIfEmpty = s.system.manager := by
          unfold resetCurrentIfEmpty
          rw [if_neg none]
        rw [same]
        refine inv.rests.imp_right fun repaired => ?_
        rcases repaired with ⟨k, seeks⟩ | ⟨empty, -⟩
        · refine .inl ⟨k, ?_⟩
          have other : k ≠ n := by
            rintro rfl
            unfold Seeks at seeks
            rw [left] at seeks
            cases seeks
          exact (Function.update_of_ne other ..).trans seeks
        · exact absurd empty none

theorem Repaired.act {system : System} (repaired : Repaired s)
    (empty : s.system.manager.entries = [] → system.manager.entries = []) :
    Repaired { s with system := system } :=
  repaired.imp_right fun last => ⟨empty last.1, last.2⟩

theorem repairs_act {a : Action} (inv : Repairs s) (steady : Steady s (.act a))
    (step : s.step env (.act a) = some s') : Repairs s' := by
  unfold Threads.step at step
  dsimp only at step
  split_ifs at step with operation
  obtain ⟨system, taken, rfl⟩ := Option.map_eq_some_iff.mp step
  refine ⟨inv.rest, ?_⟩
  have keeps (same : ids system.manager = ids s.system.manager)
      (moves : Moves s.system.manager system.manager) :
      Rests system.manager ∨ Repaired { s with system := system } := by
    rcases inv.rests with rests | repaired
    · exact .inl (rests.moves moves same)
    · exact .inr (repaired.act (entries_nil_of_ids same))
  cases a with
  | start t call =>
    unfold System.step at taken
    dsimp only at taken
    split_ifs at taken
    cases taken
    exact keeps rfl (.inl rfl)
  | drop t =>
    unfold System.step at taken
    dsimp only at taken
    split_ifs at taken
    cases taken
    exact keeps rfl (.inl rfl)
  | operation op => exact absurd rfl operation
  | task t input =>
    obtain ⟨next, stepped, rfl⟩ := Option.map_eq_some_iff.mp taken
    unfold Steady at steady
    dsimp only at steady
    by_cases switches : ∃ att id c, s.system.tasks t = .switching att id c
    · obtain ⟨att, id, c, stands⟩ := switches
      rw [stands] at steady stepped
      cases stepped
      exact .inl (.inr steady)
    by_cases pushes : ∃ id c, s.system.tasks t = .addPushing id c
    · obtain ⟨id, c, stands⟩ := pushes
      rw [stands] at steady stepped
      cases stepped
      have grown : ids { s.system.manager with
          entries := s.system.manager.entries ++ [{ id := id, credentials := c }] } =
          ids s.system.manager ++ [id] := List.map_append
      have named (here : s.system.manager.currentId ∈ ids s.system.manager ++ [id]) :
          Named { s.system.manager with
            entries := s.system.manager.entries ++ [{ id := id, credentials := c }] } := by
        unfold Named
        rw [grown]
        exact here
      rcases inv.rests with (zero | before) | seeks | ⟨none, -⟩
      · exact .inl (.inl zero)
      · exact .inl (.inr (named (List.mem_append_left _ before)))
      · exact .inr (.inl seeks)
      · rcases steady none with zero | new | seeks
        · exact .inl (.inl zero)
        · refine .inl (.inr (named (List.mem_append_right _ ?_)))
          rw [new]
          exact List.mem_singleton_self id
        · exact .inr (.inl seeks)
    · refine keeps ?_ (moves_stepTask stepped fun att id c stands => switches ⟨att, id, c, stands⟩)
      refine ids_of_changes
        (forall₂_stepTask (s := s.system) (a := .task t input) rfl rfl stepped ?_)
      intro id c stands
      exact pushes ⟨id, c, stands⟩

theorem repairs_step (inv : Repairs s) (steady : Steady s move)
    (step : s.step env move = some s') : Repairs s' := by
  cases move with
  | act a => exact repairs_act inv steady step
  | call n op => exact repairs_call inv step
  | resume n => exact repairs_resume inv steady step

theorem rests_new {src : Sources} (started : Startup.MultiTokenManager.new src = .ok m) :
    Rests m := by
  unfold Startup.MultiTokenManager.new at started
  dsimp only at started
  split_ifs at started
  cases started
  cases best : ((Startup.startEntries src).filter (!·.disabled)).argmin
      (·.credentials.priority) with
  | none => exact .inl rfl
  | some e =>
    refine .inr ?_
    unfold Named ids
    dsimp only
    rw [List.map_map]
    have same : (fun e : CredentialEntry => e.id) ∘ Startup.withStats src.stats = fun e => e.id :=
      funext fun e => (Startup.withStats_eq src.stats e).1
    rw [same]
    exact List.mem_map_of_mem (List.mem_of_mem_filter (List.argmin_mem best))

theorem repairs_run {src : Sources} (started : Startup.MultiTokenManager.new src = .ok m)
    {trace : List (Threads × Move)} (run : ThreadRun env m trace s)
    (steady : Guarded Steady trace) : Repairs s := by
  have initial : Repairs (Threads.initial m) := by
    refine ⟨fun n op never => ?_, .inl (rests_new started)⟩
    cases never
  exact run.invariant_state initial (fun _ _ _ inv steady step => repairs_step inv steady step)
    steady

theorem reported_step (reporting : reports s move = true) (step : s.step env move = some s') :
    Reported s.system.manager s'.system.manager := by
  cases move with
  | resume n => cases reporting
  | call n op =>
    unfold Threads.step at step
    dsimp only at step
    split at step
    · split_ifs at step
      cases step
      cases op with
      | reportFailure id stamp => exact reported_reportFailure id stamp
      | reportQuotaExhausted id stamp => exact reported_reportQuotaExhausted id stamp
      | reportRefreshFailure id stamp => exact reported_reportRefreshFailure id stamp
      | reportRefreshTokenInvalid id stamp => exact reported_reportRefreshTokenInvalid id stamp
      | _ => cases reporting
    · cases step
  | act a =>
    cases a with
    | task t input =>
      unfold Threads.step at step
      dsimp only at step
      rw [if_neg (show ¬ isOperation (.task t input) = true from Bool.false_ne_true)] at step
      obtain ⟨system, taken, rfl⟩ := Option.map_eq_some_iff.mp step
      obtain ⟨next, stepped, rfl⟩ := Option.map_eq_some_iff.mp taken
      unfold reports at reporting
      dsimp only at reporting
      split at reporting
      · next attempt id stands =>
        rw [stands] at stepped
        cases stepped
        exact reported_reportRefreshTokenInvalid id input.stamp
      · next attempt id stands =>
        rw [stands] at stepped
        cases stepped
        exact reported_reportRefreshFailure id input.stamp
      · cases reporting
    | _ => cases reporting

/-- What a thread still has to run of an operation is its last sections. -/
theorem pending_since {n : Nat} {op : Operation} {before : Threads}
    {later earlier : List (Threads × Move)}
    (run : ThreadRun env m (later ++ (before, .call n op) :: earlier) s)
    (since : ∀ p ∈ later, goesOn n p.2) :
    s.pending n <:+ followUps before.system.manager op ∧
      (later = [] → s.pending n = followUps before.system.manager op) := by
  induction later generalizing s with
  | nil =>
    cases run with
    | cons run taken =>
      have here : s.pending n = followUps before.system.manager op := by
        unfold Threads.step at taken
        dsimp only at taken
        split at taken
        · split_ifs at taken
          cases taken
          exact Function.update_self ..
        · cases taken
      exact ⟨by rw [here], fun _ => here⟩
  | cons p later ih =>
    cases run with
    | @cons _ t _ move run taken =>
      obtain ⟨suffix, -⟩ := ih run fun p mem => since p (List.mem_cons_of_mem _ mem)
      refine ⟨?_, fun never => by cases never⟩
      have other := since (t, move) List.mem_cons_self
      unfold Threads.step at taken
      cases move with
      | act a =>
        dsimp only at taken
        split_ifs at taken
        obtain ⟨system, -, rfl⟩ := Option.map_eq_some_iff.mp taken
        exact suffix
      | call k op' =>
        dsimp only at taken
        split at taken
        · split_ifs at taken
          cases taken
          rw [show (t.section_ env k op' _).pending n = t.pending n from
            Function.update_of_ne (Ne.symm other) ..]
          exact suffix
        · cases taken
      | resume k =>
        dsimp only at taken
        split at taken
        · cases taken
        · next op' rest left =>
          cases taken
          by_cases here : n = k
          · rw [here] at suffix ⊢
            rw [show (t.section_ env k op' rest).pending k = rest from Function.update_self ..]
            rw [left] at suffix
            exact (List.suffix_cons op' rest).trans suffix
          · rw [show (t.section_ env k op' rest).pending n = t.pending n from
              Function.update_of_ne here ..]
            exact suffix

theorem takes_cases {n : Nat} {op : Operation} {before : Threads}
    {later trace : List (Threads × Move)} (run : ThreadRun env m trace s)
    (takes : Takes n op before later trace) :
    (later = [] ∧ s.pending n = followUps before.system.manager op) ∨
    ∃ t next rest, t.pending n = next :: s.pending n ∧
      next :: s.pending n <:+ followUps before.system.manager op ∧
      s.system.manager = next.apply env t.system.manager ∧
      later = (t, .resume n) :: rest ∧ ThreadRun env m (trace.drop 1) t ∧
      ((∀ p ∈ rest.head?, p.2 = .resume n) → Takes n op before rest (trace.drop 1)) := by
  obtain ⟨⟨earlier, rfl⟩, since, last⟩ := takes
  cases later with
  | nil => exact .inl ⟨rfl, (pending_since run since).2 rfl⟩
  | cons p rest =>
    cases run with
    | @cons _ t _ move run taken =>
      have moved : move = .resume n := last (t, move) rfl
      rw [moved] at taken ⊢
      have goes (p : Threads × Move) (mem : p ∈ rest) := since p (List.mem_cons_of_mem _ mem)
      obtain ⟨suffix, -⟩ := pending_since run goes
      unfold Threads.step at taken
      dsimp only at taken
      split at taken
      · cases taken
      · next next left pending =>
        cases taken
        rw [show (t.section_ env n next left).pending n = left from Function.update_self ..]
        rw [pending] at suffix
        exact .inr ⟨t, next, rest, pending, suffix, rfl, rfl, run,
          fun last => ⟨⟨earlier, rfl⟩, goes, last⟩⟩

theorem followUps_setPriority {id priority : Nat} (present : id ∈ ids m) :
    followUps m (.setPriority id priority) = [.selectHighestPriority] := by
  obtain ⟨e, mem, here⟩ := List.mem_map.mp present
  have found : ∃ e, m.find id = some e := by
    refine Option.isSome_iff_exists.mp (List.find?_isSome.mpr ⟨e, mem, ?_⟩)
    exact beq_iff_eq.mpr here
  obtain ⟨e, found⟩ := found
  unfold followUps setPriorityOf editEntry
  dsimp only
  rw [found]
  rfl

theorem followUps_deleteCurrent {e : CredentialEntry} (found : m.find m.currentId = some e)
    (disabled : e.disabled = true) :
    followUps m (.deleteEntry m.currentId) = [.selectHighestPriority, .resetCurrentIfEmpty] := by
  unfold followUps deleteEntry
  dsimp only
  rw [found]
  dsimp only
  rw [disabled]
  simp

theorem best_of_prioritized {n id priority : Nat} {before : Threads}
    {later trace : List (Threads × Move)} (run : ThreadRun env m trace s)
    (takes : Takes n (.setPriority id priority) before later trace)
    (present : id ∈ ids before.system.manager) (ended : s.pending n = []) :
    Best s.system.manager := by
  rcases takes_cases run takes with ⟨-, pending⟩ | ⟨t, next, rest, -, suffix, chosen, -⟩
  · rw [followUps_setPriority present, ended] at pending
    cases pending
  · rw [followUps_setPriority present, ended] at suffix
    have same := (List.suffix_iff_eq_drop.mp suffix).trans rfl
    cases same
    rw [chosen]
    exact best_switchToBest t.system.manager

theorem best_of_chosen {n : Nat} {before : Threads} {later trace : List (Threads × Move)}
    {e : CredentialEntry} (run : ThreadRun env m trace s)
    (takes : Takes n (.deleteEntry before.system.manager.currentId) before later trace)
    (found : before.system.manager.find before.system.manager.currentId = some e)
    (disabled : e.disabled = true) (left : s.pending n = [.resetCurrentIfEmpty]) :
    Best s.system.manager := by
  rcases takes_cases run takes with ⟨-, pending⟩ | ⟨t, next, rest, -, suffix, chosen, -⟩
  · rw [followUps_deleteCurrent found disabled, left] at pending
    cases pending
  · rw [followUps_deleteCurrent found disabled, left] at suffix
    have same := (List.suffix_iff_eq_drop.mp suffix).trans rfl
    cases same
    rw [chosen]
    exact best_switchToBest t.system.manager

theorem best_resetCurrentIfEmpty (best : Best m) : Best m.resetCurrentIfEmpty := by
  unfold resetCurrentIfEmpty
  split_ifs with none
  · rintro ⟨e, mem, -⟩
    dsimp only at mem
    rw [none] at mem
    cases mem
  · exact best

theorem best_of_deleted {n : Nat} {before : Threads} {later trace : List (Threads × Move)}
    {e : CredentialEntry} (run : ThreadRun env m trace s)
    (takes : Takes n (.deleteEntry before.system.manager.currentId) before later trace)
    (found : before.system.manager.find before.system.manager.currentId = some e)
    (disabled : e.disabled = true) (alone : ∀ p ∈ later, p.2 = .resume n)
    (ended : s.pending n = []) : Best s.system.manager := by
  rcases takes_cases run takes with ⟨-, pending⟩ |
    ⟨t, next, rest, pending, suffix, reset, rfl, earlier, takes⟩
  · rw [followUps_deleteCurrent found disabled, ended] at pending
    cases pending
  · rw [followUps_deleteCurrent found disabled, ended] at suffix
    rw [ended] at pending
    have same := (List.suffix_iff_eq_drop.mp suffix).trans rfl
    cases same
    rw [reset]
    refine best_resetCurrentIfEmpty (best_of_chosen earlier (takes ?_) found disabled pending)
    exact fun p mem => alone p (List.mem_cons_of_mem _ (List.mem_of_mem_head? mem))

/-- In every run whose steps are steady, the current id is 0 or that of an entry after every
operation, and names the best entry where it is chosen. -/
theorem points_well (env : Env) (src : Sources) (m : MultiTokenManager)
    (started : Startup.MultiTokenManager.new src = .ok m) (trace : List (Threads × Move))
    (s : Threads) (run : ThreadRun env m trace s) (steady : Guarded Steady trace) :
    PointsWell env trace s := by
  obtain ⟨-, rests⟩ := repairs_run started run steady
  constructor
  · intro quiet
    rcases rests with rests | ⟨n, seeks⟩ | ⟨-, n, last⟩
    · exact rests
    · refine absurd ?_ (quiet n)
      rw [show s.pending n = _ from seeks]
      exact List.mem_cons_of_mem _ List.mem_cons_self
    · refine absurd ?_ (quiet n)
      rw [last]
      exact List.mem_cons_self
  · exact fun n id priority before later takes => best_of_prioritized run takes
  · exact fun n before later e takes => best_of_chosen run takes
  · exact fun n before later e takes => best_of_deleted run takes
  · intro n rest s' left step best
    unfold Threads.step at step
    dsimp only at step
    rw [left] at step
    cases step
    exact best_resetCurrentIfEmpty best
  · intro move s' reporting step disables
    exact (reported_step reporting step).best disables

def threadsFrom (src : Sources) (moves : List Move) : Option (List (Threads × Move) × Threads) :=
  (Startup.MultiTokenManager.new src).toOption.bind fun m =>
    follow (Threads.step plainEnv) [] (Threads.initial m) moves

def ofFirst : Move → Bool
  | .act _ => false
  | .call n _ | .resume n => n == 0

theorem idle_of_first {trace : List (Threads × Move)} (run : ThreadRun env m trace s)
    (first : ∀ p ∈ trace, ofFirst p.2 = true) (n : Nat) (other : n ≠ 0) : s.pending n = [] := by
  induction run with
  | nil => rfl
  | @cons trace s s' move run taken ih =>
    have idle := ih fun p mem => first p (List.mem_cons_of_mem _ mem)
    have here : ofFirst move = true := first (s, move) List.mem_cons_self
    cases move with
    | act a => cases here
    | call k op =>
      have zero : k = 0 := beq_iff_eq.mp here
      unfold Threads.step at taken
      dsimp only at taken
      split at taken
      · split_ifs at taken
        cases taken
        exact (Function.update_of_ne (by rw [zero]; exact other) ..).trans idle
      · cases taken
    | resume k =>
      have zero : k = 0 := beq_iff_eq.mp here
      unfold Threads.step at taken
      dsimp only at taken
      split at taken
      · cases taken
      · cases taken
        exact (Function.update_of_ne (by rw [zero]; exact other) ..).trans idle

theorem threadsFrom_run {src : Sources} {moves : List Move}
    {reached : List (Threads × Move) × Threads} (followed : threadsFrom src moves = some reached) :
    ∃ m, Startup.MultiTokenManager.new src = .ok m ∧
      ThreadRun plainEnv m reached.1 reached.2 ∧ ∀ p ∈ reached.1, p.2 ∈ moves := by
  obtain ⟨m, started, followed⟩ := Option.bind_eq_some_iff.mp followed
  obtain ⟨run, each⟩ := follow_run .nil followed
  refine ⟨m, ?_, run, fun p mem => (each p mem).resolve_left fun never => by cases never⟩
  cases new : Startup.MultiTokenManager.new src with
  | error e =>
    rw [new] at started
    cases started
  | ok m' =>
    rw [new] at started
    cases started
    rfl

def deletesCurrent : List Move :=
  [.call 0 (.setDisabled 1 true), .call 0 (.setDisabled 2 true), .call 0 (.deleteEntry 1),
    .resume 0, .resume 0]

theorem deletesCurrent_run :
    ((threadsFrom SelfHealing.twoKeySources deletesCurrent).any fun reached =>
      reached.2.system.manager.currentId == 1 && ids reached.2.system.manager == [2] &&
        (reached.2.pending 0).isEmpty) = true := by
  decide +kernel

theorem deletesCurrent_first : deletesCurrent.all ofFirst = true := rfl

/-- The current id is that of the entry that was deleted. -/
theorem current_dangles : ¬ ∀ (env : Env) (src : Sources) (m : MultiTokenManager),
    Startup.MultiTokenManager.new src = .ok m → ∀ (trace : List (Threads × Move)) (s : Threads),
      ThreadRun env m trace s → PointsWell env trace s := by
  intro claim
  obtain ⟨reached, followed, holds⟩ := (Option.any_eq_true _ _).mp deletesCurrent_run
  simp only [Bool.and_eq_true, beq_iff_eq, List.isEmpty_iff] at holds
  obtain ⟨⟨current, left⟩, quiet⟩ := holds
  obtain ⟨m, started, run, each⟩ := threadsFrom_run followed
  have first (p : Threads × Move) (mem : p ∈ reached.1) : ofFirst p.2 = true :=
    List.all_eq_true.mp deletesCurrent_first p.2 (each p mem)
  have named := (claim plainEnv _ m started reached.1 reached.2 run).named fun n => by
    by_cases here : n = 0
    · rw [here, quiet]
      exact List.not_mem_nil
    · rw [idle_of_first run first n here]
      exact List.not_mem_nil
  unfold Named at named
  rw [current, left] at named
  rcases named with never | never
  · cases never
  · cases List.mem_singleton.mp never

def steadyCheck (p : Threads × Move) : Bool :=
  match p.2 with
  | .resume _ => p.1.system.manager.anyEnabled
  | .act (.task t _) =>
    match p.1.system.tasks t with
    | .switching _ id _ => decide (id ∈ ids p.1.system.manager)
    | .addPushing _ _ => !p.1.system.manager.entries.isEmpty
    | _ => true
  | _ => true

theorem steady_of_check (checked : steadyCheck (s, move) = true) : Steady s move := by
  cases move with
  | call n op => trivial
  | resume n => exact fun _ => .inr (.inl checked)
  | act a =>
    cases a with
    | start t call | drop t | operation op => trivial
    | task t input =>
      unfold steadyCheck at checked
      unfold Steady
      dsimp only at checked ⊢
      split at checked
      · exact of_decide_eq_true checked
      · intro none
        rw [none] at checked
        cases checked
      · trivial

def fourKeySources : Sources :=
  ⟨⟨"us-east-1", none, none⟩, "priority",
    [{ id := some 1, kiroApiKey := some "ksk_1" },
      { id := some 2, kiroApiKey := some "ksk_2", priority := 1 },
      { id := some 3, kiroApiKey := some "ksk_3", priority := 2 },
      { id := some 4, kiroApiKey := some "ksk_4", priority := 3 }], fun _ => "machine", []⟩

/-- The first account cools down. The third is made the best, and before its choice a request
switches to it. It runs out of quota, and the second is deleted while the priority of the fourth
changes. -/
def chosenInTurn : List Move :=
  [.call 2 (.reportAccountThrottled 1 0 0 60000), .act (.start 0 (.acquireContext none)),
    .act (.task 0 {}), .call 1 (.setPriority 3 0), .act (.task 0 {}), .act (.task 0 {}),
    .call 2 (.setDisabled 1 true), .act (.task 0 {}), .resume 1,
    .call 2 (.reportQuotaExhausted 3 "now"), .call 1 (.setDisabled 2 true),
    .call 1 (.deleteEntry 2), .call 2 (.setPriority 4 1), .resume 1, .resume 2, .resume 1]

theorem chosenInTurn_run :
    ((threadsFrom fourKeySources chosenInTurn).any fun reached =>
      reached.1.all steadyCheck && ids reached.2.system.manager == [1, 3, 4] &&
        reached.1.reverse.map (·.1.system.manager.currentId) ==
          [1, 1, 1, 1, 1, 1, 1, 1, 3, 3, 2, 2, 2, 2, 4, 4] &&
        reached.2.system.manager.currentId == 4) = true := by
  decide +kernel

/-- The current id follows the choices of two threads and of a request. -/
theorem points_well_inTurn : ∃ m trace s, ThreadRun plainEnv m trace s ∧
    s.system.manager.currentId = 4 ∧ ids s.system.manager = [1, 3, 4] ∧
    PointsWell plainEnv trace s := by
  obtain ⟨reached, followed, holds⟩ := (Option.any_eq_true _ _).mp chosenInTurn_run
  simp only [Bool.and_eq_true, beq_iff_eq, List.all_eq_true] at holds
  obtain ⟨⟨⟨checked, left⟩, -⟩, current⟩ := holds
  obtain ⟨m, started, run, -⟩ := threadsFrom_run followed
  exact ⟨m, reached.1, reached.2, run, current, left, points_well plainEnv _ m started _ _ run
    fun p mem => steady_of_check (checked p mem)⟩

end KiroRs.Pool.CurrentId
