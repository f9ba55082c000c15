/- Path: KiroRs/Admin/ClientKeys
   source: src/admin/client_keys.rs
   digest: The keys that clients authenticate with: the two maps of the manager, its file, and every
   operation on them. -/

import KiroRs.Lib.Text
import Mathlib.Data.List.AList
import Mathlib.Data.List.Sort

set_option autoImplicit false
set_option relaxedAutoImplicit false

namespace KiroRs.Admin.ClientKeys

open KiroRs.Lib

def clientKeyPrefix : String := "csk_"

def keyHashScheme : String := "hmac-sha256"

/-- What the manager takes from outside: the digests in hexadecimal (HMAC-SHA256 under the hash
secret, and plain SHA-256), and of floating point numbers, told by their bits, the addition and
what the JSON reader makes of a printed one. -/
structure Env where
  hmac : String → String
  sha256 : String → String
  addF64 : UInt64 → UInt64 → UInt64
  rereadF64 : UInt64 → UInt64

variable (env : Env)

/-- `hash_key_with_secret`. -/
def hashKey (key : String) : String := keyHashScheme ++ ":" ++ env.hmac key

def legacySha256Hash (key : String) : String := env.sha256 key

structure ClientKey where
  id : Nat
  key : String := ""
  keyHash : String := ""
  keyPrefix : String := ""
  name : String
  description : Option String := none
  disabled : Bool := false
  createdAt : String
  lastUsedAt : Option String := none
  totalCalls : UInt64 := 0
  totalInputTokens : UInt64 := 0
  totalOutputTokens : UInt64 := 0
  totalCacheCreationTokens : UInt64 := 0
  totalCacheReadTokens : UInt64 := 0
  totalCredits : UInt64 := 0
  deriving DecidableEq, Repr

/-- `is_finite() && > 0.0`, of the bits of an `f64`. -/
def isFinitePositive (bits : UInt64) : Bool := 0 < bits && bits < 0x7FF0000000000000

/-- `key_prefix`. -/
def shownPrefix (key : String) : String := String.ofList (key.toList.take 8)

abbrev Entries := AList fun _ : Nat => ClientKey

abbrev HashIndex := AList fun _ : String => Nat

structure Inner where
  entries : Entries
  byHash : HashIndex
  nextId : Nat
  dirtyUsage : Bool

/-- The manager with its file. A file that is missing or blank is `none`. -/
structure ClientKeyManager where
  inner : Inner
  file : Option (List ClientKey)

/-- An entry as it is written: the plaintext is skipped. -/
def ClientKey.stored (ck : ClientKey) : ClientKey := { ck with key := "" }

def list (inner : Inner) : List ClientKey :=
  (inner.entries.entries.map (·.2)).insertionSort (·.id ≤ ·.id)

/-- A failed write is a warning; the old file stays. -/
def saveLocked (written : Bool) (m : ClientKeyManager) : ClientKeyManager :=
  { inner := { m.inner with dirtyUsage := false }
    file := if written then some ((list m.inner).map ClientKey.stored) else m.file }

/-- The state of the loop of `load`. -/
structure LoadLoop where
  byHash : HashIndex := ∅
  byId : Entries := ∅
  maxId : Nat := 0
  needsRewrite : Bool := false

def scrub (ck : ClientKey) : ClientKey :=
  if ck.key.isEmpty then ck
  else
    { ck with
      keyHash := hashKey env ck.key
      keyPrefix := if ck.keyPrefix.isEmpty then shownPrefix ck.key else ck.keyPrefix
      key := "" }

def readEntry (ck : ClientKey) : ClientKey :=
  scrub env { ck with totalCredits := env.rereadF64 ck.totalCredits }

def loadEntry (loop : LoadLoop) (ck : ClientKey) : LoadLoop :=
  let scrubbed := readEntry env ck
  { byHash :=
      if scrubbed.keyHash.isEmpty then loop.byHash
      else loop.byHash.insert scrubbed.keyHash ck.id
    byId := loop.byId.insert ck.id scrubbed
    maxId := max loop.maxId ck.id
    needsRewrite := loop.needsRewrite || !ck.key.isEmpty }

def load (file : Option (List ClientKey)) (written : Bool) : ClientKeyManager :=
  let loop := (file.getD []).foldl (loadEntry env) {}
  let manager : ClientKeyManager :=
    { inner :=
        { entries := loop.byId, byHash := loop.byHash, nextId := (loop.maxId + 1) % 2 ^ 64,
          dirtyUsage := false }
      file := file }
  if loop.needsRewrite then saveLocked written manager else manager

/-- The key is the prefix and a random token. The entry in memory keeps the plaintext. -/
def create (token name : String) (description : Option String) (now : String) (written : Bool)
    (m : ClientKeyManager) : ClientKeyManager × ClientKey :=
  let key := clientKeyPrefix ++ token
  let id := m.inner.nextId
  let entry : ClientKey :=
    { id := id, key := key, keyHash := hashKey env key, keyPrefix := shownPrefix key,
      name := name, description := description, createdAt := now }
  let inner :=
    { m.inner with
      nextId := (m.inner.nextId + 1) % 2 ^ 64
      byHash := m.inner.byHash.insert entry.keyHash id
      entries := m.inner.entries.insert id entry }
  (saveLocked written { m with inner := inner }, entry)

def delete (id : Nat) (written : Bool) (m : ClientKeyManager) : ClientKeyManager × Bool :=
  match m.inner.entries.lookup id with
  | some e =>
    let inner :=
      { m.inner with
        entries := m.inner.entries.erase id
        byHash := m.inner.byHash.erase e.keyHash }
    (saveLocked written { m with inner := inner }, true)
  | none => (m, false)

/-- The change of one entry that is there, saved. -/
def updateEntry (f : ClientKey → ClientKey) (id : Nat) (written : Bool) (m : ClientKeyManager) :
    ClientKeyManager × Bool :=
  match m.inner.entries.lookup id with
  | some e =>
    let inner := { m.inner with entries := m.inner.entries.insert id (f e) }
    (saveLocked written { m with inner := inner }, true)
  | none => (m, false)

def setDisabled (id : Nat) (disabled : Bool) :
    Bool → ClientKeyManager → ClientKeyManager × Bool :=
  updateEntry (fun e => { e with disabled := disabled }) id

def updateMeta (id : Nat) (name : Option String) (description : Option (Option String)) :
    Bool → ClientKeyManager → ClientKeyManager × Bool :=
  updateEntry
    (fun e =>
      { e with name := name.getD e.name, description := description.getD e.description }) id

def resetStats (id : Nat) : Bool → ClientKeyManager → ClientKeyManager × Bool :=
  updateEntry
    (fun e =>
      { e with
        totalCalls := 0
        totalInputTokens := 0
        totalOutputTokens := 0
        totalCacheCreationTokens := 0
        totalCacheReadTokens := 0
        totalCredits := 0 }) id

/-- The order in which the entries are visited, which the hash map does not fix. -/
structure VisitOrder where
  visit : List (Sigma fun _ : Nat => ClientKey) → List (Sigma fun _ : Nat => ClientKey)
  visit_perm : ∀ l, (visit l).Perm l

structure Scan where
  hitId : Option Nat := none
  legacyHitHash : Option String := none
  deriving DecidableEq

/-- The entry is enabled and has one of the two hashes of the presented key. -/
def matchesKey (presented : String) (ck : ClientKey) : Bool :=
  !ck.disabled &&
    (ck.keyHash == hashKey env presented || ck.keyHash == legacySha256Hash env presented)

def scanEntry (presented : String) (scan : Scan) (p : Sigma fun _ : Nat => ClientKey) : Scan :=
  if matchesKey env presented p.2 then
    { hitId := some p.1
      legacyHitHash :=
        if p.2.keyHash = legacySha256Hash env presented then some p.2.keyHash
        else scan.legacyHitHash }
  else scan

def touch (presented now : String) (upgrade : Bool) (e : ClientKey) : ClientKey :=
  { e with
    keyHash := if upgrade then hashKey env presented else e.keyHash
    totalCalls := e.totalCalls + 1
    lastUsedAt := some now }

/-- The scan goes through all entries. A hit on a legacy hash upgrades it, and saves. -/
def verifyAndTouch (order : VisitOrder) (presented now : String) (written : Bool)
    (m : ClientKeyManager) : ClientKeyManager × Option Nat :=
  if !Text.startsWith presented clientKeyPrefix then (m, none)
  else
    let scan := (order.visit m.inner.entries.entries).foldl (scanEntry env presented) {}
    match scan.hitId with
    | none => (m, none)
    | some id =>
      let entries :=
        match m.inner.entries.lookup id with
        | some e =>
          m.inner.entries.insert id (touch env presented now scan.legacyHitHash.isSome e)
        | none => m.inner.entries
      match scan.legacyHitHash with
      | none => ({ m with inner := { m.inner with entries := entries } }, some id)
      | some oldHash =>
        let byHash := (m.inner.byHash.erase oldHash).insert (hashKey env presented) id
        let inner := { m.inner with entries := entries, byHash := byHash }
        (saveLocked written { m with inner := inner }, some id)

/-- Sums wrap as they do in a release build. -/
def addUsage (inputTokens outputTokens cacheCreationTokens cacheReadTokens credits : UInt64)
    (now : String) (e : ClientKey) : ClientKey :=
  { e with
    totalInputTokens := e.totalInputTokens + inputTokens
    totalOutputTokens := e.totalOutputTokens + outputTokens
    totalCacheCreationTokens := e.totalCacheCreationTokens + cacheCreationTokens
    totalCacheReadTokens := e.totalCacheReadTokens + cacheReadTokens
    totalCredits :=
      if isFinitePositive credits then env.addF64 e.totalCredits credits else e.totalCredits
    lastUsedAt := some now }

/-- Nothing is saved here, and the flag is set whether or not the entry is there. -/
def recordUsage (id : Nat)
    (inputTokens outputTokens cacheCreationTokens cacheReadTokens credits : UInt64) (now : String)
    (m : ClientKeyManager) : ClientKeyManager :=
  let entries :=
    match m.inner.entries.lookup id with
    | some e =>
      m.inner.entries.insert id
        (addUsage env inputTokens outputTokens cacheCreationTokens cacheReadTokens credits now e)
    | none => m.inner.entries
  { m with inner := { m.inner with entries := entries, dirtyUsage := true } }

def flushToDisk (written : Bool) (m : ClientKeyManager) : ClientKeyManager :=
  if m.inner.dirtyUsage then saveLocked written m else m

end KiroRs.Admin.ClientKeys
