/- Path: KiroRs/Cache/Meter
   source: src/anthropic/cache_metering.rs
   digest: The store of the simulated prompt cache, what a request reads from it and writes to it,
   and the runs of the meter. -/

import KiroRs.Cache.Segments

set_option autoImplicit false
set_option relaxedAutoImplicit false

namespace KiroRs.Cache.Meter

open KiroRs.Cache.Signatures
open KiroRs.Cache.Segments

structure CacheEntry where
  tokens : Nat
  expiresAt : Nat
  lastHitAt : Nat
  deriving DecidableEq, Repr

/-- The map from hashes to entries, in an order of its own. -/
structure Entries (H : Type) where
  list : List (H × CacheEntry)
  nodup : (list.map (·.1)).Nodup

/-- The entries, and whether they changed since they were written to disk. -/
structure CacheMeter (H : Type) where
  entries : Entries H := ⟨[], List.nodup_nil⟩
  dirty : Bool := false

/-- What a successful request writes. -/
structure CacheCommit (H : Type) where
  segmentHashes : List H
  segmentTokens : List Nat
  ttlSecs : Nat
  deriving DecidableEq, Repr

structure CacheUsagePlan (H : Type) where
  cacheRead : Int := 0
  cacheCoveredEst : Int := 0
  promptTotalEst : Int := 0
  commit : Option (CacheCommit H) := none
  deriving DecidableEq, Repr

variable {H : Type} [DecidableEq H]

def Entries.get (entries : Entries H) (h : H) : Option CacheEntry := entries.list.lookup h

def putList (h : H) (e : CacheEntry) : List (H × CacheEntry) → List (H × CacheEntry)
  | [] => [(h, e)]
  | p :: rest => if p.1 = h then (h, e) :: rest else p :: putList h e rest

theorem keys_putList (h : H) (e : CacheEntry) (list : List (H × CacheEntry)) :
    (putList h e list).map (·.1) = if h ∈ list.map (·.1) then list.map (·.1)
      else list.map (·.1) ++ [h] := by
  induction list with
  | nil => rfl
  | cons p rest ih =>
    unfold putList
    by_cases here : p.1 = h
    · rw [if_pos here, List.map_cons, List.map_cons, here, if_pos List.mem_cons_self]
    · have same : h ∈ (p :: rest).map (·.1) ↔ h ∈ rest.map (·.1) := by
        rw [List.map_cons, List.mem_cons]
        exact or_iff_right (Ne.symm here)
      rw [if_neg here, List.map_cons, ih]
      simp only [same]
      split_ifs <;> rfl

def Entries.put (entries : Entries H) (h : H) (e : CacheEntry) : Entries H where
  list := putList h e entries.list
  nodup := by
    rw [keys_putList]
    split_ifs with there
    · exact entries.nodup
    · exact List.nodup_append.mpr ⟨entries.nodup, List.nodup_singleton h, by
        intro a mem b single same
        rw [List.mem_singleton.mp single] at same
        rw [same] at mem
        exact there mem⟩

def Entries.filter (entries : Entries H) (p : H × CacheEntry → Bool) : Entries H where
  list := entries.list.filter p
  nodup := entries.nodup.sublist (List.filter_sublist.map _)

def capacity : Nat := 4096

/-- A segment is hit while its entry lives, which notes the time. -/
def lookupOne (now : Nat) (entries : Entries H) (h : H) : Bool × Entries H :=
  match entries.get h with
  | some e =>
    if e.expiresAt > now then (true, entries.put h { e with lastHitAt := now })
    else (false, entries)
  | none => (false, entries)

def lookup (now : Nat) (entries : Entries H) : List H → List Bool × Entries H
  | [] => ([], entries)
  | h :: rest =>
    let (hit, entries) := lookupOne now entries h
    let (hits, entries) := lookup now entries rest
    (hit :: hits, entries)

/-- Drops the entries that were hit the longest ago. `iterate` is the order in which the map is
gone through. -/
def evictOldest (iterate : List (H × CacheEntry) → List (H × CacheEntry)) (entries : Entries H) :
    Entries H :=
  if entries.list.length > capacity then
    let victims := ((iterate entries.list).insertionSort (·.2.lastHitAt ≤ ·.2.lastHitAt)).take
      (entries.list.length - capacity)
    entries.filter fun p => !(victims.map (·.1)).contains p.1
  else entries

def CacheCommit.expiresAt (c : CacheCommit H) (now : Nat) : Nat :=
  now + max 60 (min c.ttlSecs maxTtlSecs)

/-- The entries with the segments of a commit, before anything is evicted. -/
def recorded (now : Nat) (c : CacheCommit H) (entries : Entries H) : Entries H :=
  (c.segmentHashes.zip c.segmentTokens).foldl
    (fun entries p => entries.put p.1 ⟨p.2, c.expiresAt now, now⟩) entries

def record (iterate : List (H × CacheEntry) → List (H × CacheEntry)) (now : Nat)
    (c : CacheCommit H) (m : CacheMeter H) : CacheMeter H :=
  ⟨evictOldest iterate (recorded now c m.entries), true⟩

def evictExpired (now : Nat) (m : CacheMeter H) : CacheMeter H :=
  let entries := m.entries.filter fun p => p.2.expiresAt > now
  ⟨entries, m.dirty || entries.list.length != m.entries.list.length⟩

/-- `n as i32`. -/
def asI32 (n : Nat) : Int := if n < 2147483648 then n else n - 4294967296

def deepestHit : List Bool → List Nat → Nat
  | true :: hits, t :: tokens =>
    if hits.contains true then deepestHit hits tokens else t
  | false :: hits, _ :: tokens => deepestHit hits tokens
  | _, _ => 0

/-- What the plan of a request commits, whatever it found. -/
def commitOf (env : Env H) (req : MessagesRequest) (keyId : Nat) : Option (CacheCommit H) :=
  let (segments, _, cacheEnabled) := extractSegments env req keyId
  match segments with
  | [] => none
  | first :: _ =>
    if cacheEnabled then
      some ⟨segments.map (·.hash), segments.map (·.cumulativeTokens), first.ttlSecs⟩
    else none

def computeCacheUsage (env : Env H) (now : Nat) (m : CacheMeter H) (req : MessagesRequest)
    (keyId : Nat) : CacheUsagePlan H × CacheMeter H :=
  let (segments, promptTotalEst, _) := extractSegments env req keyId
  if segments.isEmpty then ({ promptTotalEst := asI32 promptTotalEst }, m)
  else
    let cumTokens := segments.map (·.cumulativeTokens)
    let (hits, entries) := lookup now m.entries (segments.map (·.hash))
    ({ cacheRead := asI32 (deepestHit hits cumTokens)
       cacheCoveredEst := asI32 (cumTokens.getLast?.getD 0)
       promptTotalEst := asI32 promptTotalEst
       commit := commitOf env req keyId },
      { m with entries := entries })

/-- What happens to the meter: a request is measured, the plan of a request is committed, and the
background task drops what has expired. -/
inductive Event (H : Type) where
  | measure (now : Nat) (req : MessagesRequest) (keyId : Nat)
  | commitSuccess (now : Nat) (req : MessagesRequest) (keyId : Nat)
      (iterate : List (H × CacheEntry) → List (H × CacheEntry))
  | sweep (now : Nat)

def step (env : Env H) (m : CacheMeter H) : Event H → CacheMeter H
  | .measure now req keyId => (computeCacheUsage env now m req keyId).2
  | .commitSuccess now req keyId iterate =>
    match commitOf env req keyId with
    | some c => record iterate now c m
    | none => m
  | .sweep now => evictExpired now m

def CacheMeter.deadline (m : CacheMeter H) (h : H) : Option Nat :=
  (m.entries.get h).map (·.expiresAt)

theorem lookup_putList (h h' : H) (e : CacheEntry) (list : List (H × CacheEntry)) :
    (putList h e list).lookup h' = if h' = h then some e else list.lookup h' := by
  induction list with
  | nil =>
    unfold putList
    rw [List.lookup_cons]
    by_cases here : h' = h
    · rw [here, beq_self_eq_true, if_pos rfl]
    · rw [beq_eq_false_iff_ne.mpr here, if_neg here]
  | cons p rest ih =>
    unfold putList
    by_cases there : p.1 = h
    · rw [if_pos there, List.lookup_cons]
      by_cases here : h' = h
      · rw [here, beq_self_eq_true, if_pos rfl]
      · have other : (h' == p.1) = false := by
          rw [there]
          exact beq_eq_false_iff_ne.mpr here
        rw [beq_eq_false_iff_ne.mpr here, if_neg here, List.lookup_cons, other]
    · rw [if_neg there, List.lookup_cons, List.lookup_cons, ih]
      by_cases here : h' = h
      · have other : (h' == p.1) = false := by
          rw [here]
          exact beq_eq_false_iff_ne.mpr (Ne.symm there)
        rw [other, if_pos here]
      · rw [if_neg here, if_neg here]

theorem get_put (entries : Entries H) (h h' : H) (e : CacheEntry) :
    (entries.put h e).get h' = if h' = h then some e else entries.get h' :=
  lookup_putList h h' e entries.list

theorem get_filter (entries : Entries H) (p : CacheEntry → Bool) (h : H) :
    (entries.filter fun q => p q.2).get h = (entries.get h).filter p := by
  have nodup : (entries.list.map (·.1)).Nodup := entries.nodup
  show (entries.list.filter fun q => p q.2).lookup h = (entries.list.lookup h).filter p
  revert nodup
  induction entries.list with
  | nil => exact fun _ => rfl
  | cons q rest ih =>
    intro nodup
    have absent := (List.nodup_cons.mp nodup).1
    have ih := ih (List.nodup_cons.mp nodup).2
    rw [List.lookup_cons]
    by_cases here : h = q.1
    · have gone : (rest.filter fun q => p q.2).lookup h = none := by
        rw [List.lookup_eq_none_iff]
        intro r mem
        rw [bne_iff_ne, here]
        intro same
        have there : q.1 ∈ rest.map (·.1) := by
          rw [same]
          exact List.mem_map_of_mem (List.mem_of_mem_filter mem)
        exact absent there
      rw [here, beq_self_eq_true]
      rw [here] at gone
      dsimp only [Option.filter]
      rw [List.filter_cons]
      split_ifs
      · rw [List.lookup_cons, beq_self_eq_true]
      · exact gone
    · rw [beq_eq_false_iff_ne.mpr here, List.filter_cons]
      split_ifs
      · rw [List.lookup_cons, beq_eq_false_iff_ne.mpr here]
        exact ih
      · exact ih

theorem lookup_spec (now : Nat) (entries : Entries H) (hs : List H) :
    (lookup now entries hs).1 = hs.map (fun h =>
      ((entries.get h).map (·.expiresAt)).any (now < ·)) ∧
    ∀ h, ((lookup now entries hs).2.get h).map (·.expiresAt) =
      (entries.get h).map (·.expiresAt) := by
  induction hs generalizing entries with
  | nil => exact ⟨rfl, fun h => rfl⟩
  | cons h rest ih =>
    have one : (lookupOne now entries h).1 =
          ((entries.get h).map (·.expiresAt)).any (now < ·) ∧
        ∀ h', ((lookupOne now entries h).2.get h').map (·.expiresAt) =
          (entries.get h').map (·.expiresAt) := by
      unfold lookupOne
      cases found : entries.get h with
      | none => exact ⟨rfl, fun h' => rfl⟩
      | some e =>
        dsimp only [Option.map_some, Option.any_some]
        split_ifs with lives
        · refine ⟨(decide_eq_true lives).symm, fun h' => ?_⟩
          dsimp only
          rw [get_put]
          split_ifs with same
          · rw [same, found]
            rfl
          · rfl
        · exact ⟨(decide_eq_false lives).symm, fun h' => rfl⟩
    obtain ⟨hits, kept⟩ := ih (lookupOne now entries h).2
    refine ⟨?_, fun h' => (kept h').trans (one.2 h')⟩
    show (lookupOne now entries h).1 :: (lookup now (lookupOne now entries h).2 rest).1 = _
    rw [hits, one.1, List.map_cons]
    simp only [one.2]

theorem map_get_recorded {α : Type} (part : CacheEntry → α) {v : α} {now : Nat} {c : CacheCommit H}
    (alike : ∀ tokens, part ⟨tokens, c.expiresAt now, now⟩ = v) (entries : Entries H) (h : H) :
    ((recorded now c entries).get h).map part =
      if h ∈ (c.segmentHashes.zip c.segmentTokens).map (·.1) then some v
      else (entries.get h).map part := by
  unfold recorded
  induction c.segmentHashes.zip c.segmentTokens generalizing entries with
  | nil => rfl
  | cons p rest ih =>
    rw [List.foldl_cons, ih, List.map_cons]
    by_cases later : h ∈ rest.map (·.1)
    · rw [if_pos later, if_pos (List.mem_cons_of_mem _ later)]
    · rw [if_neg later, get_put]
      by_cases here : h = p.1
      · rw [if_pos here, here, if_pos List.mem_cons_self, Option.map_some, alike]
      · have absent : h ∉ p.1 :: rest.map (·.1) := by
          rw [List.mem_cons, not_or]
          exact ⟨here, later⟩
        rw [if_neg here, if_neg absent]

theorem get_recorded (now : Nat) (c : CacheCommit H) (entries : Entries H) (h : H) :
    ((recorded now c entries).get h).map (·.expiresAt) =
      if h ∈ (c.segmentHashes.zip c.segmentTokens).map (·.1) then some (c.expiresAt now)
      else (entries.get h).map (·.expiresAt) :=
  map_get_recorded (·.expiresAt) (fun _ => rfl) entries h

/-- The meter without its capacity, as the deadlines of the segments. -/
def deadlineStep (env : Env H) (deadline : H → Option Nat) : Event H → H → Option Nat
  | .measure _ _ _ => deadline
  | .commitSuccess now req keyId _ =>
    match commitOf env req keyId with
    | some c => fun h => if h ∈ c.segmentHashes then some (c.expiresAt now) else deadline h
    | none => deadline
  | .sweep now => fun h => (deadline h).filter (now < ·)

/-- Nothing is evicted for want of room. -/
def roomy (env : Env H) (m : CacheMeter H) : Event H → Bool
  | .commitSuccess now req keyId _ =>
    (commitOf env req keyId).all fun c => (recorded now c m.entries).list.length ≤ capacity
  | _ => true

theorem commitOf_eq_some {env : Env H} {req : MessagesRequest} {keyId : Nat} {c : CacheCommit H}
    (plan : commitOf env req keyId = some c) :
    c.segmentHashes = (chainOf env req keyId).segments.map (·.hash) ∧
      c.segmentTokens = (chainOf env req keyId).segments.map (·.cumulativeTokens) := by
  unfold commitOf extractSegments at plan
  dsimp only at plan
  split at plan
  · cases plan
  · next first rest segments =>
    split_ifs at plan
    cases plan
    rw [segments]
    exact ⟨rfl, rfl⟩

theorem keys_of_plan {env : Env H} {req : MessagesRequest} {keyId : Nat} {c : CacheCommit H}
    (plan : commitOf env req keyId = some c) :
    (c.segmentHashes.zip c.segmentTokens).map (·.1) = c.segmentHashes := by
  obtain ⟨hashes, tokens⟩ := commitOf_eq_some plan
  rw [hashes, tokens]
  refine List.map_fst_zip ?_
  rw [List.length_map, List.length_map]

/-- The deadlines follow the meter without its capacity as long as nothing is evicted. -/
theorem deadline_step {env : Env H} {m : CacheMeter H} {event : Event H}
    (room : roomy env m event = true) : (step env m event).deadline = deadlineStep env m.deadline event := by
  funext h
  cases event with
  | measure now req keyId =>
    show ((computeCacheUsage env now m req keyId).2.entries.get h).map (·.expiresAt) = _
    unfold computeCacheUsage
    dsimp only
    split_ifs
    · rfl
    · exact (lookup_spec now m.entries _).2 h
  | commitSuccess now req keyId iterate =>
    cases plan : commitOf env req keyId with
    | none =>
      simp only [step, deadlineStep, plan]
    | some c =>
      simp only [roomy, plan, Option.all_some, decide_eq_true_eq] at room
      simp only [step, deadlineStep, plan]
      unfold CacheMeter.deadline record evictOldest
      dsimp only
      rw [if_neg (Nat.not_lt_of_le room), get_recorded, keys_of_plan plan]
  | sweep now =>
    unfold step deadlineStep CacheMeter.deadline evictExpired
    dsimp only
    have kept := get_filter m.entries (fun e => decide (e.expiresAt > now)) h
    rw [kept]
    cases m.entries.get h with
    | none => rfl
    | some e =>
      dsimp only [Option.filter, Option.map_some]
      split_ifs <;> rfl

def CacheMeter.lives (m : CacheMeter H) (now : Nat) (h : H) : Bool := (m.deadline h).any (now < ·)

theorem cacheRead_eq (env : Env H) (now : Nat) (m : CacheMeter H) (req : MessagesRequest)
    (keyId : Nat) : (computeCacheUsage env now m req keyId).1.cacheRead =
      asI32 (deepestHit ((chainOf env req keyId).segments.map fun s => m.lives now s.hash)
        ((chainOf env req keyId).segments.map (·.cumulativeTokens))) := by
  unfold computeCacheUsage extractSegments
  dsimp only
  cases (chainOf env req keyId).segments with
  | nil => rfl
  | cons first rest =>
    rw [if_neg (by exact Bool.false_ne_true)]
    dsimp only
    rw [(lookup_spec now m.entries _).1, List.map_map]
    rfl

end KiroRs.Cache.Meter
