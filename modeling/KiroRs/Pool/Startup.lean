/- Path: KiroRs/Pool/Startup
   source: src/kiro/token_manager.rs
   digest: The pool that `MultiTokenManager::new` builds of a list of credentials, and the file of
   its statistics. -/

import KiroRs.Lib.Dicts
import KiroRs.Pool.Persistence
import KiroRs.Pool.Changes

set_option autoImplicit false
set_option relaxedAutoImplicit false

namespace KiroRs.Pool.Startup

open KiroRs.Lib
open KiroRs.Lib.Dicts (Dict)
open KiroRs.Pool.Credentials
open KiroRs.Pool.Manager
open KiroRs.Pool.Tasks (nextId maxId)
open KiroRs.Pool.Persistence (canonicalizeAuthMethodValue)

/-- Every credential with its own id, or with the next one. -/
def assignIds : Nat → List KiroCredentials → List (Nat × KiroCredentials)
  | _, [] => []
  | next, c :: rest =>
    match c.id with
    | some id => (id, c) :: assignIds next rest
    | none => (next, c) :: assignIds ((next + 1) % 2 ^ 64) rest

def duplicateIds (seen : List Nat) : List Nat → List Nat
  | [] => []
  | id :: rest =>
    if id ∈ seen then id :: duplicateIds seen rest else duplicateIds (id :: seen) rest

/-- `machineId` is `generate_from_credentials` of this process. -/
def startEntry (config : Config) (machineId : KiroCredentials → String)
    (p : Nat × KiroCredentials) : CredentialEntry :=
  let cred := { p.2 with
    authMethod := p.2.authMethod.map canonicalizeAuthMethodValue
    id := some p.1 }.fillDefaultProfileArnWithRegion (some config.effectiveApiRegion)
  { id := p.1
    credentials := { cred with machineId := some (cred.machineId.getD (machineId cred)) }
    disabled := cred.disabled
    disabledReason := if cred.disabled then some .manual else none }

def lacksKey (c : KiroCredentials) : Bool :=
  c.kiroApiKey.isNone && KiroCredentials.named c.authMethod ["api_key", "apikey"]

def checkConfig (e : CredentialEntry) : CredentialEntry :=
  if lacksKey e.credentials then
    { e with disabled := true, disabledReason := some .invalidConfig }
  else e

structure StatsEntry where
  successCount : Nat
  totalFailureCount : Nat
  lastUsedAt : Option String
  deriving DecidableEq, Repr

/-- What `load_stats` takes over into an entry. -/
def withStats (stats : Dict StatsEntry) (e : CredentialEntry) : CredentialEntry :=
  match Dicts.get stats (toString e.id) with
  | some s =>
    { e with
      successCount := s.successCount
      totalFailureCount := s.totalFailureCount
      lastUsedAt := s.lastUsedAt }
  | none => e

/-- What `save_stats` writes. -/
def collectStats (entries : List CredentialEntry) : Dict StatsEntry :=
  Dicts.ofList (entries.map fun e =>
    (toString e.id, ⟨e.successCount, e.totalFailureCount, e.lastUsedAt⟩))

/-- What a start reads: the configuration, the credentials file, the machine ids of this process
and the file of the statistics. -/
structure Sources where
  config : Config
  loadBalancingMode : String
  credentials : List KiroCredentials
  machineId : KiroCredentials → String
  stats : Dict StatsEntry

def startEntries (src : Sources) : List CredentialEntry :=
  let first := ((src.credentials.filterMap (·.id)).foldl max 0 + 1) % 2 ^ 64
  (assignIds first src.credentials).map fun p =>
    checkConfig (startEntry src.config src.machineId p)

def MultiTokenManager.new (src : Sources) : Except String MultiTokenManager :=
  let entries := startEntries src
  if duplicateIds [] (entries.map (·.id)) ≠ [] then
    .error ("检测到重复的凭据 ID: " ++ toString (duplicateIds [] (entries.map (·.id))))
  else
    let initial := (entries.filter (!·.disabled)).argmin (·.credentials.priority)
    .ok
      { config := src.config
        entries := entries.map (withStats src.stats)
        currentId := (initial.map (·.id)).getD 0
        loadBalancingMode := src.loadBalancingMode
        enterpriseProfileFetchAttempted := [] }

theorem distinct_of_no_duplicates {seen ids : List Nat} (none : duplicateIds seen ids = []) :
    ids.Nodup ∧ ∀ id ∈ ids, id ∉ seen := by
  induction ids generalizing seen with
  | nil => exact ⟨List.nodup_nil, fun id mem => by cases mem⟩
  | cons id rest ih =>
    unfold duplicateIds at none
    split_ifs at none with known
    obtain ⟨distinct, fresh⟩ := ih none
    refine ⟨List.nodup_cons.mpr ⟨?_, distinct⟩, ?_⟩
    · intro again
      exact fresh id again List.mem_cons_self
    · intro other mem seenBefore
      rcases List.mem_cons.mp mem with rfl | later
      · exact known seenBefore
      · exact fresh other later (List.mem_cons_of_mem _ seenBefore)

theorem withStats_eq (stats : Dict StatsEntry) (e : CredentialEntry) :
    (withStats stats e).id = e.id ∧ (withStats stats e).credentials = e.credentials ∧
      (withStats stats e).disabled = e.disabled ∧
      (withStats stats e).disabledReason = e.disabledReason ∧
      (withStats stats e).failureCount = e.failureCount ∧
      (withStats stats e).refreshFailureCount = e.refreshFailureCount := by
  unfold withStats
  split
  · exact ⟨rfl, rfl, rfl, rfl, rfl, rfl⟩
  · exact ⟨rfl, rfl, rfl, rfl, rfl, rfl⟩

end KiroRs.Pool.Startup
