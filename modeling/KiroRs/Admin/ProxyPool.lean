/- Path: KiroRs/Admin/ProxyPool
   source: src/admin/proxy_pool.rs
   digest: The pool of proxies: its operations, the probes that are applied after an await, and the
   runs of all of them with restarts. -/

import Mathlib.Data.List.DropRight
import KiroRs.Lib.Edits
import KiroRs.Lib.Text
import KiroRs.Lib.Traces

set_option autoImplicit false
set_option relaxedAutoImplicit false

namespace KiroRs.Admin.ProxyPool

open KiroRs.Lib.Edits
open KiroRs.Lib.Text (startsWith trim)

/-- After as many failed probes in a row a proxy is disabled. -/
def maxProxyProbeFailures : UInt32 := 3

inductive ProxyHealth where
  | unknown | healthy | unhealthy
  deriving DecidableEq, Repr

structure ProxyEntry where
  id : Nat
  url : String
  label : Option String
  enabled : Bool := true
  health : ProxyHealth := .unknown
  latencyMs : Option UInt32 := none
  lastCheckedAt : Option String := none
  consecutiveFailures : UInt32 := 0
  autoDisabled : Bool := false
  deriving DecidableEq, Repr

structure ProxyPoolManager where
  entries : List ProxyEntry := []
  nextId : Nat := 1
  deriving DecidableEq, Repr

def validSchemes : List String := ["http://", "https://", "socks5://", "socks4://"]

/-- The host is what follows the last `@` behind the scheme. -/
def validateProxyUrl (url : String) : Except String Unit :=
  match validSchemes.find? (startsWith url ·) with
  | none =>
    .error ("代理 URL scheme 无效，支持: http/https/socks4/socks5（收到: " ++ url ++ "）")
  | some scheme =>
    let afterScheme := url.toList.drop scheme.length
    let hostPart := afterScheme.rtakeWhile (· ≠ '@')
    if hostPart.contains ':' then .ok () else .error ("代理 URL 缺少端口号: " ++ url)

namespace ProxyPoolManager

/-- `new`: a file that is missing or does not parse is an empty pool. -/
def load (file : Option (List ProxyEntry)) : ProxyPoolManager :=
  let entries := file.getD []
  { entries, nextId := (entries.map (·.id)).foldr max 0 + 1 }

variable (m : ProxyPoolManager)

def insert (url : String) (label : Option String) : ProxyEntry × ProxyPoolManager :=
  let entry : ProxyEntry := { id := m.nextId, url, label }
  (entry, { entries := m.entries ++ [entry], nextId := m.nextId + 1 })

def hasUrl (url : String) : Bool := m.entries.any (·.url = url)

def add (url : String) (label : Option String) : Except String (ProxyEntry × ProxyPoolManager) := do
  let url := trim url
  if url.isEmpty then throw "代理 URL 不能为空"
  validateProxyUrl url
  if m.hasUrl url then throw ("代理 URL 已存在: " ++ url)
  return m.insert url label

/-- What the loop over the URLs has added and refused so far. -/
structure Batch where
  manager : ProxyPoolManager
  added : List ProxyEntry := []
  errors : List String := []

/-- One URL of a batch. Blank lines and comments are skipped. -/
def batchOne (batch : Batch) (url : String) : Batch :=
  let url := trim url
  if url.isEmpty || startsWith url "#" then batch
  else
    match validateProxyUrl url with
    | .error e => { batch with errors := batch.errors ++ [e] }
    | .ok () =>
      if batch.manager.hasUrl url then
        { batch with errors := batch.errors ++ ["代理 URL 已存在: " ++ url] }
      else
        let (entry, manager) := batch.manager.insert url none
        { batch with manager, added := batch.added ++ [entry] }

def batchAdd (urls : List String) : Batch := urls.foldl batchOne { manager := m }

def missing (id : Nat) : String := "代理不存在: " ++ toString id

def delete (id : Nat) : Except String ProxyPoolManager :=
  let entries := m.entries.filter (·.id ≠ id)
  if entries.length = m.entries.length then .error (missing id) else .ok { m with entries }

def enable (enabled : Bool) (e : ProxyEntry) : ProxyEntry :=
  if enabled then { e with enabled, autoDisabled := false, consecutiveFailures := 0 }
  else { e with enabled }

def setEnabled (id : Nat) (enabled : Bool) : Except String ProxyPoolManager :=
  match modifyFirst (·.id = id) (enable enabled) m.entries with
  | some entries => .ok { m with entries }
  | none => .error (missing id)

end ProxyPoolManager

inductive ProbeResult where
  | ok (latencyMs : UInt32)
  | err (error : String)
  deriving DecidableEq, Repr

/-- A result with the time at which it is applied. -/
structure Reply where
  result : ProbeResult
  checkedAt : String
  deriving DecidableEq, Repr

/-- The entry, whether it became unhealthy, and whether it was disabled now. -/
def applyProbeResult (entry : ProxyEntry) (reply : Reply) : ProxyEntry × Bool × Bool :=
  let entry := { entry with lastCheckedAt := some reply.checkedAt }
  match reply.result with
  | .ok latencyMs =>
    ({ entry with health := .healthy, latencyMs := some latencyMs, consecutiveFailures := 0 },
      false, false)
  | .err _ =>
    let entry : ProxyEntry :=
      { entry with
        health := .unhealthy
        latencyMs := none
        consecutiveFailures := entry.consecutiveFailures + 1 }
    if maxProxyProbeFailures ≤ entry.consecutiveFailures && entry.enabled then
      ({ entry with enabled := false, autoDisabled := true }, true, true)
    else (entry, true, false)

/-- A probe is started for the proxy with an id, through its URL. -/
abbrev Target := Nat × String

structure CheckSummary where
  healthy : Nat := 0
  unhealthy : Nat := 0
  autoDisabled : Nat := 0
  deriving DecidableEq, Repr

def CheckSummary.count (summary : CheckSummary) (unhealthy newlyDisabled : Bool) : CheckSummary where
  healthy := if unhealthy then summary.healthy else summary.healthy + 1
  unhealthy := if unhealthy then summary.unhealthy + 1 else summary.unhealthy
  autoDisabled := if newlyDisabled then summary.autoDisabled + 1 else summary.autoDisabled

/-- One result is applied to the entry with the id, if there still is one. -/
def applyOne (loop : List ProxyEntry × CheckSummary) (result : Target × Reply) :
    List ProxyEntry × CheckSummary :=
  match loop.1.find? (·.id = result.1.1) with
  | none => loop
  | some entry =>
    let (_, unhealthy, newlyDisabled) := applyProbeResult entry result.2
    let entries := modifyFirst (·.id = result.1.1) (fun e => (applyProbeResult e result.2).1) loop.1
    (entries.getD loop.1, loop.2.count unhealthy newlyDisabled)

def applyAll (entries : List ProxyEntry) (results : List (Target × Reply)) :
    List ProxyEntry × CheckSummary :=
  results.foldl applyOne (entries, {})

inductive Probe where
  | one (target : Target)
  | all (targets : List Target)
  deriving DecidableEq, Repr

def Probe.targets : Probe → List Target
  | one target => [target]
  | all targets => targets

/-- How a write of the file ends: done, not begun, or broken off. -/
inductive Written where
  | whole | kept | torn
  deriving DecidableEq, Repr

/-- The manager, its file where it has one, the calls that have yet to persist, and the checks in
flight. -/
structure PoolState where
  manager : ProxyPoolManager
  hasPath : Bool
  file : Option (List ProxyEntry) := none
  unsaved : Nat := 0
  probes : List Probe := []
  deriving DecidableEq, Repr

/-- Every move is one section under the lock of the entries, or the start or loss of a check. -/
inductive Move where
  | add (url : String) (label : Option String)
  | batchAdd (urls : List String)
  | delete (id : Nat)
  | setEnabled (id : Nat) (enabled : Bool)
  | startOne (id : Nat)
  | startAll
  | finish (n : Nat) (replies : List Reply)
  | abandon (n : Nat)
  | persist (written : Written)
  | reload
  deriving DecidableEq, Repr

namespace PoolState

variable (s : PoolState)

/-- A changed manager is written after the lock is released. -/
def changed (manager : ProxyPoolManager) : PoolState :=
  { s with manager, unsaved := s.unsaved + 1 }

def settle {α : Type} (outcome : Except String α) (manager : α → ProxyPoolManager) : PoolState :=
  match outcome with
  | .ok a => s.changed (manager a)
  | .error _ => s

def batchAdd (urls : List String) : PoolState :=
  let batch := s.manager.batchAdd urls
  if batch.added.isEmpty then { s with manager := batch.manager } else s.changed batch.manager

def startOne (id : Nat) : PoolState :=
  match s.manager.entries.find? (·.id = id) with
  | some e => { s with probes := s.probes ++ [.one (id, e.url)] }
  | none => s

def targetsNow : List Target :=
  (s.manager.entries.filter (·.enabled)).map fun e => (e.id, e.url)

/-- Only enabled proxies are checked, and without one nothing is. -/
def startAll : PoolState :=
  if s.targetsNow.isEmpty then s else { s with probes := s.probes ++ [.all s.targetsNow] }

/-- The results of a check, one for each target. A single check whose entry is gone fails. -/
def finish (n : Nat) (replies : List Reply) : Option PoolState :=
  match s.probes[n]? with
  | none => none
  | some probe =>
    if probe.targets.length ≠ replies.length then none
    else
      let rest := { s with probes := s.probes.eraseIdx n }
      let entries := (applyAll s.manager.entries (probe.targets.zip replies)).1
      match probe with
      | .one (id, _) =>
        if s.manager.entries.any (·.id = id) then some (rest.changed { s.manager with entries })
        else some rest
      | .all _ => some (rest.changed { s.manager with entries })

def persist (written : Written) : Option PoolState :=
  if s.unsaved = 0 then none
  else
    let s := { s with unsaved := s.unsaved - 1 }
    if !s.hasPath then some s
    else
      match written with
      | .whole => some { s with file := some s.manager.entries }
      | .kept => some s
      | .torn => some { s with file := none }

/-- A new process reads the file; what was in flight is lost. -/
def reload : PoolState :=
  { manager := .load s.file, hasPath := s.hasPath, file := s.file }

def step (s : PoolState) : Move → Option PoolState
  | .add url label => some (s.settle (s.manager.add url label) (·.2))
  | .batchAdd urls => some (s.batchAdd urls)
  | .delete id => some (s.settle (s.manager.delete id) fun m => m)
  | .setEnabled id enabled => some (s.settle (s.manager.setEnabled id enabled) fun m => m)
  | .startOne id => some (s.startOne id)
  | .startAll => some s.startAll
  | .finish n replies => s.finish n replies
  | .abandon n => if n < s.probes.length then some { s with probes := s.probes.eraseIdx n } else none
  | .persist written => s.persist written
  | .reload => some s.reload

/-- A pool that has no file yet. -/
def start (hasPath : Bool) : PoolState := { manager := .load none, hasPath }

end PoolState

end KiroRs.Admin.ProxyPool
