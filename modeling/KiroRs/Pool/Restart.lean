/- Path: KiroRs/Pool/Restart
   source: src/kiro/token_manager.rs, src/kiro/model/credentials.rs
   digest: A pool that is written to its file and built again of it, and which of its entries come
   back as they were. -/

import Mathlib.Data.List.Sort
import KiroRs.Pool.Invariants
import KiroRs.Pool.Persistence

set_option autoImplicit false
set_option relaxedAutoImplicit false

namespace KiroRs.Pool.Restart

open KiroRs.Lib.Text
open KiroRs.Lib.Traces
open KiroRs.Pool.Credentials
open KiroRs.Pool.Manager
open KiroRs.Pool.Tasks
open KiroRs.Pool.ManualDisable (ids)
open KiroRs.Pool.Persistence
open KiroRs.Pool.Startup
open KiroRs.Pool.Selection (plainEnv)
open KiroRs.Pool.Invariants

def canonicalizeAuthMethod (c : KiroCredentials) : KiroCredentials :=
  { c with authMethod := c.authMethod.map canonicalizeAuthMethodValue }

/-- The array format: the lower priorities first, in a stable sort. -/
def intoSortedCredentials (creds : List KiroCredentials) : List KiroCredentials :=
  (creds.insertionSort fun c c' => c.priority ≤ c'.priority).map canonicalizeAuthMethod

/-- `MultiTokenManager::new` of the file that `persist_credentials` writes of a pool. The other
sources are those of the new process. -/
def restart (src : Sources) (m : MultiTokenManager) : Except String MultiTokenManager :=
  Startup.MultiTokenManager.new { src with credentials := intoSortedCredentials (collected m) }

/-- An operator disabled the entry, or its quota did. -/
def Asked (e : CredentialEntry) : Prop :=
  e.disabled = true ∧
    (e.disabledReason = some .manual ∨ e.disabledReason = some .quotaExceeded)

/-- The credentials agree. A start makes the method canonical and fills in a machine id and a
profile that are not there; `disabled` repeats the flag of the entry. -/
structure SameCredentials (c c' : KiroCredentials) : Prop where
  fields : c' =
    { c with
      authMethod := c'.authMethod
      machineId := c'.machineId
      profileArn := c'.profileArn
      disabled := c'.disabled }
  authMethod : c'.authMethod = c.authMethod.map canonicalizeAuthMethodValue
  machineId : ∀ id, c.machineId = some id → c'.machineId = some id
  profileArn : c.isApiKeyCredential = true ∨ c.profileArn.any (!isPlaceholderProfileArn ·) = true →
    c'.profileArn = c.profileArn

structure KeptEntry (e e' : CredentialEntry) : Prop where
  credentials : SameCredentials e.credentials e'.credentials
  asked : Asked e' ↔ Asked e
  failures : e.disabledReason = some .tooManyFailures ∨
    e.disabledReason = some .tooManyRefreshFailures → e'.disabledReason ≠ some .manual

/-- The same ids, and each entry kept. -/
def Preserves (m m' : MultiTokenManager) : Prop :=
  (ids m').Perm (ids m) ∧
    ∀ e ∈ m.entries, ∀ e' ∈ m'.entries, e'.id = e.id → KeptEntry e e'

/-- The file remembers why the entry is disabled: an operator or the quota did it, or the entry lacks
its key and no one did it. -/
def Remembered (e : CredentialEntry) : Prop :=
  if lacksKey e.credentials then ¬ Asked e else e.disabled = true → Asked e

instance (e : CredentialEntry) : Decidable (Asked e) :=
  inferInstanceAs (Decidable (e.disabled = true ∧
    (e.disabledReason = some .manual ∨ e.disabledReason = some .quotaExceeded)))

instance (e : CredentialEntry) : Decidable (Remembered e) :=
  inferInstanceAs (Decidable
    (if lacksKey e.credentials then ¬ Asked e else e.disabled = true → Asked e))

theorem canonicalize_cases (value : String) :
    (value.toLower = "builder-id" ∨ value.toLower = "iam") ∧
      canonicalizeAuthMethodValue value = "idc" ∨
    (value.toLower = "api_key" ∨ value.toLower = "apikey") ∧
      canonicalizeAuthMethodValue value = "api_key" ∨
    canonicalizeAuthMethodValue value = value := by
  have lower : ∀ name : String, name.toLower = name →
      (eqIgnoreAsciiCase value name = true ↔ value.toLower = name) := by
    intro name same
    unfold eqIgnoreAsciiCase
    rw [same]
    exact beq_iff_eq
  have login : (eqIgnoreAsciiCase value "builder-id" || eqIgnoreAsciiCase value "iam") = true ↔
      value.toLower = "builder-id" ∨ value.toLower = "iam" := by
    rw [Bool.or_eq_true, lower "builder-id" (by decide +kernel), lower "iam" (by decide +kernel)]
  have key : (eqIgnoreAsciiCase value "api_key" || eqIgnoreAsciiCase value "apikey") = true ↔
      value.toLower = "api_key" ∨ value.toLower = "apikey" := by
    rw [Bool.or_eq_true, lower "api_key" (by decide +kernel), lower "apikey" (by decide +kernel)]
  unfold canonicalizeAuthMethodValue
  split_ifs with is_login is_key
  · exact .inl ⟨login.mp is_login, rfl⟩
  · exact .inr (.inl ⟨key.mp is_key, rfl⟩)
  · exact .inr (.inr rfl)

theorem canonicalizeAuthMethodValue_idem (value : String) :
    canonicalizeAuthMethodValue (canonicalizeAuthMethodValue value) =
      canonicalizeAuthMethodValue value := by
  rcases canonicalize_cases value with ⟨-, eq⟩ | ⟨-, eq⟩ | eq
  · rw [eq]
    decide +kernel
  · rw [eq]
    decide +kernel
  · rw [eq, eq]

theorem named_canonicalize (method : Option String) :
    KiroCredentials.named (method.map canonicalizeAuthMethodValue) ["api_key", "apikey"] =
      KiroCredentials.named method ["api_key", "apikey"] := by
  cases method with
  | none => rfl
  | some value =>
    rw [Option.map_some]
    rcases canonicalize_cases value with ⟨lower, eq⟩ | ⟨lower, eq⟩ | eq
    · rw [eq]
      simp only [KiroCredentials.named, List.any_cons, List.any_nil, eqIgnoreAsciiCase]
      rcases lower with lower | lower
      · rw [lower]
        decide +kernel
      · rw [lower]
        decide +kernel
    · rw [eq]
      simp only [KiroCredentials.named, List.any_cons, List.any_nil, eqIgnoreAsciiCase]
      rcases lower with lower | lower
      · rw [lower]
        decide +kernel
      · rw [lower]
        decide +kernel
    · rw [eq]

theorem fillDefaultProfileArn_cases (c : KiroCredentials) (region : Option String) :
    c.fillDefaultProfileArnWithRegion region = c ∨
      c.isApiKeyCredential = false ∧ c.profileArn.any (!isPlaceholderProfileArn ·) = false ∧
        ∃ arn, c.fillDefaultProfileArnWithRegion region = { c with profileArn := arn } := by
  unfold KiroCredentials.fillDefaultProfileArnWithRegion
  split_ifs with key real
  · exact .inl rfl
  · exact .inl rfl
  all_goals exact .inr ⟨Bool.eq_false_iff.mpr key, Bool.eq_false_iff.mpr real, _, rfl⟩

section Entry

variable (src : Sources) (e : CredentialEntry)

def reread : KiroCredentials :=
  { e.credentials with
    id := some e.id
    authMethod := e.credentials.authMethod.map canonicalizeAuthMethodValue
    disabled := e.disabled }

def restarted : CredentialEntry :=
  withStats src.stats (checkConfig (startEntry src.config src.machineId
    (e.id, canonicalizeAuthMethod (persisted e))))

theorem map_canonicalize (method : Option String) :
    (method.map canonicalizeAuthMethodValue).map canonicalizeAuthMethodValue =
      method.map canonicalizeAuthMethodValue := by
  cases method with
  | none => rfl
  | some value => exact congrArg some (canonicalizeAuthMethodValue_idem value)

theorem startEntry_persisted : ∃ arn machineId,
    startEntry src.config src.machineId (e.id, canonicalizeAuthMethod (persisted e)) =
      { id := e.id
        credentials := { reread e with profileArn := arn, machineId := some machineId }
        disabled := e.disabled
        disabledReason := if e.disabled then some .manual else none } ∧
    (∀ id, e.credentials.machineId = some id → machineId = id) ∧
    (e.credentials.isApiKeyCredential = true ∨
      e.credentials.profileArn.any (!isPlaceholderProfileArn ·) = true →
      arn = e.credentials.profileArn) := by
  have once : { canonicalizeAuthMethod (persisted e) with
      authMethod := (canonicalizeAuthMethod (persisted e)).authMethod.map
        canonicalizeAuthMethodValue
      id := some e.id } = reread e := by
    unfold canonicalizeAuthMethod persisted reread
    dsimp only
    rw [map_canonicalize, map_canonicalize]
  have key : (reread e).isApiKeyCredential = e.credentials.isApiKeyCredential := by
    unfold KiroCredentials.isApiKeyCredential reread
    rw [named_canonicalize]
  unfold startEntry
  dsimp only
  rw [once]
  rcases fillDefaultProfileArn_cases (reread e) (some src.config.effectiveApiRegion) with
    same | ⟨plain, unreal, arn, filled⟩
  · rw [same]
    refine ⟨e.credentials.profileArn, _, rfl, ?_, fun _ => rfl⟩
    intro id known
    have known : (reread e).machineId = some id := known
    rw [known]
    rfl
  · rw [filled]
    refine ⟨arn, _, rfl, ?_, ?_⟩
    · intro id known
      have known : (reread e).machineId = some id := known
      rw [known]
      rfl
    · rintro (with_key | real)
      · rw [key, with_key] at plain
        cases plain
      · have unreal : e.credentials.profileArn.any (!isPlaceholderProfileArn ·) = false := unreal
        rw [unreal] at real
        cases real

theorem restarted_spec (known : e.credentials.id = some e.id) :
    (restarted src e).id = e.id ∧ SameCredentials e.credentials (restarted src e).credentials ∧
      (restarted src e).disabled = (lacksKey e.credentials || e.disabled) ∧
      (restarted src e).disabledReason =
        if lacksKey e.credentials then some .invalidConfig
        else if e.disabled then some .manual else none := by
  obtain ⟨arn, machineId, starts, sameMachine, sameProfile⟩ := startEntry_persisted src e
  obtain ⟨ids, credentials, disabled, reason, -, -⟩ := withStats_eq src.stats
    (checkConfig (startEntry src.config src.machineId (e.id, canonicalizeAuthMethod (persisted e))))
  have lacks : lacksKey { reread e with profileArn := arn, machineId := some machineId } =
      lacksKey e.credentials := by
    unfold lacksKey reread
    dsimp only
    rw [named_canonicalize]
  have same : SameCredentials e.credentials
      { reread e with profileArn := arn, machineId := some machineId } := by
    refine ⟨?_, rfl, fun id present => ?_, sameProfile⟩
    · unfold reread
      rw [← known]
    · rw [sameMachine id present]
  unfold restarted
  rw [ids, credentials, disabled, reason, starts]
  unfold checkConfig
  dsimp only
  rw [lacks]
  cases lacksKey e.credentials with
  | true => exact ⟨rfl, same, rfl, rfl⟩
  | false => exact ⟨rfl, same, rfl, rfl⟩

theorem kept_restarted (known : e.credentials.id = some e.id) :
    KeptEntry e (restarted src e) ↔ Remembered e := by
  obtain ⟨-, credentials, disabled, reason⟩ := restarted_spec src e known
  unfold Remembered
  cases lacks : lacksKey e.credentials with
  | true =>
    rw [lacks, if_pos rfl] at reason
    have unasked : ¬ Asked (restarted src e) := by
      rintro ⟨-, manual | quota⟩
      · rw [reason] at manual
        cases manual
      · rw [reason] at quota
        cases quota
    rw [if_pos rfl]
    refine ⟨fun kept asked => unasked (kept.asked.mpr asked), fun known => ?_⟩
    refine ⟨credentials, iff_of_false unasked known, fun _ manual => ?_⟩
    rw [reason] at manual
    cases manual
  | false =>
    rw [lacks, Bool.false_or] at disabled
    rw [lacks, if_neg Bool.false_ne_true] at reason
    rw [if_neg Bool.false_ne_true]
    have asked_iff : Asked (restarted src e) ↔ e.disabled = true := by
      unfold Asked
      rw [disabled, reason]
      cases e.disabled with
      | true => simp
      | false => simp
    constructor
    · intro kept off
      exact kept.asked.mp (asked_iff.mpr off)
    · intro remembered
      refine ⟨credentials, asked_iff.trans ⟨remembered, fun asked => asked.1⟩, ?_⟩
      intro failures manual
      have off : e.disabled = true := by
        rw [reason] at manual
        by_contra on
        rw [if_neg on] at manual
        cases manual
      rcases (remembered off).2 with operator | quota
      · rw [operator] at failures
        rcases failures with other | other
        · cases other
        · cases other
      · rw [quota] at failures
        rcases failures with other | other
        · cases other
        · cases other

end Entry

theorem assignIds_of_known (next : Nat) (creds : List (Nat × KiroCredentials))
    (known : ∀ p ∈ creds, p.2.id = some p.1) : assignIds next (creds.map (·.2)) = creds := by
  induction creds with
  | nil => rfl
  | cons p rest ih =>
    have first : p.2.id = some p.1 := known p List.mem_cons_self
    rw [List.map_cons, assignIds, first]
    rw [ih fun q mem => known q (List.mem_cons_of_mem _ mem)]

def inFileOrder (m : MultiTokenManager) : List CredentialEntry :=
  m.entries.insertionSort fun e e' => e.credentials.priority ≤ e'.credentials.priority

theorem startEntries_restart (src : Sources) (m : MultiTokenManager)
    (known : ∀ e ∈ m.entries, e.credentials.id = some e.id) :
    (startEntries { src with credentials := intoSortedCredentials (collected m) }).map
      (withStats src.stats) = (inFileOrder m).map (restarted src) := by
  have sorted : intoSortedCredentials (collected m) =
      ((inFileOrder m).map fun e => (e.id, canonicalizeAuthMethod (persisted e))).map (·.2) := by
    have ordered := List.map_insertionSort
      (fun e e' : CredentialEntry => e.credentials.priority ≤ e'.credentials.priority)
      (fun c c' : KiroCredentials => c.priority ≤ c'.priority) persisted m.entries
      fun _ _ _ _ => Iff.rfl
    unfold intoSortedCredentials collected
    rw [← ordered, List.map_map, List.map_map]
    rfl
  unfold startEntries
  dsimp only
  rw [sorted, assignIds_of_known, List.map_map, List.map_map]
  · rfl
  · intro p mem
    obtain ⟨e, listed, rfl⟩ := List.mem_map.mp mem
    exact known e ((List.mem_insertionSort _).mp listed)

theorem no_duplicates_of_distinct {seen ids : List Nat} (distinct : ids.Nodup)
    (fresh : ∀ id ∈ ids, id ∉ seen) : duplicateIds seen ids = [] := by
  induction ids generalizing seen with
  | nil => rfl
  | cons id rest ih =>
    obtain ⟨absent, later⟩ := List.nodup_cons.mp distinct
    unfold duplicateIds
    rw [if_neg (fresh id List.mem_cons_self)]
    refine ih later fun other mem seenBefore => ?_
    rcases List.mem_cons.mp seenBefore with rfl | before
    · exact absent mem
    · exact fresh other (List.mem_cons_of_mem _ mem) before

theorem ids_restarted (src : Sources) (es : List CredentialEntry)
    (known : ∀ e ∈ es, e.credentials.id = some e.id) :
    (es.map (restarted src)).map (·.id) = es.map (·.id) := by
  rw [List.map_map]
  exact List.map_congr_left fun e mem => (restarted_spec src e (known e mem)).1

theorem ids_inFileOrder (m : MultiTokenManager) : ((inFileOrder m).map (·.id)).Perm (ids m) :=
  (List.perm_insertionSort _ _).map _

theorem entries_of_restart {src : Sources} {m m' : MultiTokenManager}
    (known : ∀ e ∈ m.entries, e.credentials.id = some e.id) (starts : restart src m = .ok m') :
    m'.entries = (inFileOrder m).map (restarted src) ∧ (ids m).Nodup := by
  have listed : ∀ e ∈ inFileOrder m, e.credentials.id = some e.id := fun e mem =>
    known e ((List.mem_insertionSort _).mp mem)
  have entries : m'.entries = (inFileOrder m).map (restarted src) :=
    (new_ok starts).1.trans (startEntries_restart src m known)
  refine ⟨entries, ?_⟩
  have distinct : (ids m').Nodup := distinct_new starts
  unfold ids at distinct
  rw [entries, ids_restarted src _ listed] at distinct
  exact (ids_inFileOrder m).nodup_iff.mp distinct

theorem exists_restart (src : Sources) {m : MultiTokenManager}
    (known : ∀ e ∈ m.entries, e.credentials.id = some e.id) (distinct : (ids m).Nodup) :
    ∃ m', restart src m = .ok m' := by
  have listed : ∀ e ∈ inFileOrder m, e.credentials.id = some e.id := fun e mem =>
    known e ((List.mem_insertionSort _).mp mem)
  have same : (startEntries
      { src with credentials := intoSortedCredentials (collected m) }).map (·.id) =
      (inFileOrder m).map (·.id) := by
    rw [← ids_restarted src _ listed, ← startEntries_restart src m known, List.map_map]
    exact List.map_congr_left fun e _ => (withStats_eq src.stats e).1.symm
  have fresh : duplicateIds [] ((startEntries
      { src with credentials := intoSortedCredentials (collected m) }).map (·.id)) = [] := by
    rw [same]
    exact no_duplicates_of_distinct ((ids_inFileOrder m).nodup_iff.mpr distinct)
      fun _ _ => List.not_mem_nil
  unfold restart Startup.MultiTokenManager.new
  dsimp only
  rw [if_neg (not_not.mpr fresh)]
  exact ⟨_, rfl⟩

theorem preserves_iff {src : Sources} {m m' : MultiTokenManager}
    (known : ∀ e ∈ m.entries, e.credentials.id = some e.id) (starts : restart src m = .ok m') :
    Preserves m m' ↔ ∀ e ∈ m.entries, Remembered e := by
  obtain ⟨entries, distinct⟩ := entries_of_restart known starts
  have listed : ∀ e ∈ inFileOrder m, e.credentials.id = some e.id := fun e mem =>
    known e ((List.mem_insertionSort _).mp mem)
  constructor
  · intro preserves e mem
    have back : restarted src e ∈ m'.entries := by
      rw [entries]
      exact List.mem_map_of_mem ((List.mem_insertionSort _).mpr mem)
    have kept := preserves.2 e mem _ back (restarted_spec src e (known e mem)).1
    exact (kept_restarted src e (known e mem)).mp kept
  · intro remembered
    constructor
    · unfold ids
      rw [entries, ids_restarted src _ listed]
      exact ids_inFileOrder m
    · intro e mem e' mem' same
      rw [entries] at mem'
      obtain ⟨e₀, there, rfl⟩ := List.mem_map.mp mem'
      have mem₀ : e₀ ∈ m.entries := (List.mem_insertionSort _).mp there
      rw [(restarted_spec src e₀ (known e₀ mem₀)).1] at same
      have eq : e₀ = e := List.inj_on_of_nodup_map distinct mem₀ mem same
      rw [eq]
      exact (kept_restarted src e (known e mem)).mpr (remembered e mem)

theorem saneSystem_run {env : Env} {src : Sources} {m : MultiTokenManager}
    (started : Startup.MultiTokenManager.new src = .ok m) {trace : List (System × Action)}
    {s : System} (run : PoolRun env m trace s) : SaneSystem s := by
  induction run with
  | nil => exact ⟨sane_new started, fun _ _ _ holds => (by cases holds),
      fun _ _ _ pushes => (by cases pushes)⟩
  | cons run taken ih => exact saneSystem_step ih taken

/-- A pool that any run reached comes back from its file as it was if and only if its ids are
distinct and the file remembers why each of its entries is disabled. -/
theorem restart_preserves_iff (env : Env) (src : Sources) (m : MultiTokenManager)
    (started : Startup.MultiTokenManager.new src = .ok m) (trace : List (System × Action))
    (s : System) (run : PoolRun env m trace s) (again : Sources) :
    (∃ m', restart again s.manager = .ok m' ∧ Preserves s.manager m') ↔
      (ids s.manager).Nodup ∧ ∀ e ∈ s.manager.entries, Remembered e := by
  have known : ∀ e ∈ s.manager.entries, e.credentials.id = some e.id := fun e mem =>
    ((saneSystem_run started run).entries e mem).identity
  constructor
  · rintro ⟨m', starts, preserves⟩
    exact ⟨(entries_of_restart known starts).2, (preserves_iff known starts).mp preserves⟩
  · rintro ⟨distinct, remembered⟩
    obtain ⟨m', starts⟩ := exists_restart again known distinct
    exact ⟨m', starts, (preserves_iff known starts).mpr remembered⟩

def switchedOff : List Action := [.operation (.setDisabled 1 true)]

theorem switchedOff_run :
    ((fromStart oneToken switchedOff).any fun reached =>
      reached.2.manager.entries.map (·.disabledReason) == [some .manual] &&
        decide (ids reached.2.manager).Nodup &&
          reached.2.manager.entries.all (fun e => decide (Remembered e))) = true := by
  decide +kernel

theorem restart_preserves_switchedOff : ∃ (m : MultiTokenManager) (trace : List (System × Action))
    (s : System), PoolRun plainEnv m trace s ∧
      s.manager.entries.map (·.disabledReason) = [some .manual] ∧
      ∃ m', restart oneToken s.manager = .ok m' ∧ Preserves s.manager m' := by
  obtain ⟨reached, followed, holds⟩ := (Option.any_eq_true _ _).mp switchedOff_run
  rw [Bool.and_eq_true, Bool.and_eq_true, beq_iff_eq, decide_eq_true_iff, List.all_eq_true] at holds
  obtain ⟨⟨reasons, distinct⟩, remembered⟩ := holds
  obtain ⟨m, started, run, -⟩ := fromStart_run followed
  refine ⟨m, reached.1, reached.2, run, reasons, ?_⟩
  exact (restart_preserves_iff plainEnv oneToken m started _ _ run oneToken).mpr
    ⟨distinct, fun e mem => decide_eq_true_iff.mp (remembered e mem)⟩

def threeFailures : List Action := List.replicate 3 (.operation (.reportFailure 1 ""))

theorem threeFailures_run :
    ((fromStart oneToken threeFailures).any fun reached =>
      reached.2.manager.entries.any (fun e =>
        e.id == 1 && e.disabledReason == some .tooManyFailures) &&
        (restart oneToken reached.2.manager).toOption.any fun m' =>
          m'.entries.any fun e => e.id == 1 && e.disabledReason == some .manual) = true := by
  decide +kernel

/-- The restart makes an operator's of it. -/
theorem failures_come_back_manual : ¬ ∀ (env : Env) (src : Sources) (m : MultiTokenManager),
    Startup.MultiTokenManager.new src = .ok m → ∀ (trace : List (System × Action)) (s : System),
      PoolRun env m trace s → ∀ again : Sources,
        ∃ m', restart again s.manager = .ok m' ∧ Preserves s.manager m' := by
  intro claim
  obtain ⟨reached, followed, holds⟩ := (Option.any_eq_true _ _).mp threeFailures_run
  obtain ⟨m, started, run, -⟩ := fromStart_run followed
  obtain ⟨m', starts, -, kept⟩ := claim plainEnv oneToken m started _ _ run oneToken
  rw [starts, Bool.and_eq_true, List.any_eq_true] at holds
  obtain ⟨⟨e, mem, fields⟩, back⟩ := holds
  obtain ⟨e', mem', fields'⟩ := List.any_eq_true.mp back
  rw [Bool.and_eq_true, beq_iff_eq, beq_iff_eq] at fields fields'
  have same : e'.id = e.id := fields'.1.trans fields.1.symm
  exact (kept e mem e' mem' same).failures (.inl fields.2) fields'.2

end KiroRs.Pool.Restart
