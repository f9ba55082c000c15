/- Path: KiroRs/Admin/UsageClock
   source: src/admin/usage_stats.rs
   digest: When the buckets of a record are those of its hour and its day, across clock changes. -/

import KiroRs.Admin.UsageStats

set_option autoImplicit false
set_option relaxedAutoImplicit false

namespace KiroRs.Admin.UsageClock

open KiroRs.Admin.UsageStats

def Only (z : Zone) (l u : Int) : Prop := ∀ v, z.wall v = l ↔ v = u

variable {z : Zone} {l t u : Int}

theorem mem_instants : t ∈ z.instants l ↔ z.wall t = l := by
  rw [Zone.instants, List.mem_filter, decide_eq_true_eq]
  constructor
  · exact fun h => h.2
  · intro reads
    refine ⟨List.mem_map.mpr ⟨z.offset t, List.mem_dedup.mpr (z.offset_mem t), ?_⟩, reads⟩
    rw [← reads, Zone.wall]
    omega

theorem nodup_instants : (z.instants l).Nodup := by
  apply List.Nodup.filter
  apply (List.nodup_dedup z.offsets).map
  intro a b same
  have eq : l - a = l - b := same
  omega

theorem only_iff : Only z l u ↔ z.instants l = [u] := by
  constructor
  · intro only
    have mem (v : Int) : v ∈ z.instants l ↔ v ∈ [u] := by
      rw [mem_instants, only, List.mem_singleton]
    exact List.perm_singleton.mp ((List.perm_ext_iff_of_nodup nodup_instants
      (List.nodup_singleton u)).mpr mem)
  · intro one v
    rw [← mem_instants, one, List.mem_singleton]

theorem fromLocal_iff : (z.fromLocal l).toOption = some u ↔ Only z l u := by
  rw [only_iff, Zone.fromLocal]
  split
  · simp [LocalResult.toOption, *]
  · simp [LocalResult.toOption, *]
  · simp [LocalResult.toOption, *]

theorem fromLocal_eq_none : (z.fromLocal l).toOption = none ↔ ¬ ∃ u, Only z l u := by
  rw [Option.eq_none_iff_forall_not_mem, not_exists]
  exact forall_congr' fun u => not_congr fromLocal_iff

/-- The hourly bucket began at most an hour before the record, the daily one at most 25 hours. -/
def OnTime (env : Env) (now : Int) (rec : UsageRecord) (t : Int) : Prop :=
  (hourTs env now rec ≤ t ∧ t < hourTs env now rec + 3600) ∧
    (dayTs env now rec ≤ t ∧ t < dayTs env now rec + 25 * 3600)

/-- Exactly one instant has the local time at which the period of `t` begins, and the clock was not
set forward since by more than has passed of the period, nor set back by what would exceed the
limit. Where there is no such instant the bucket is 0, which fits the first instants of all. -/
def Clear (z : Zone) (t start limit : Int) : Prop :=
  (∃ u, Only z start u ∧ z.offset t - z.offset u ≤ z.wall t - start ∧
    z.wall t - start < limit + (z.offset t - z.offset u)) ∨
  ((¬ ∃ u, Only z start u) ∧ 0 ≤ t ∧ t < limit)

theorem clear_iff {start limit : Int} :
    Clear z t start limit ↔ (z.fromLocal start).toOption.getD 0 ≤ t ∧
      t < (z.fromLocal start).toOption.getD 0 + limit := by
  cases found : (z.fromLocal start).toOption with
  | none =>
    have no_start := fromLocal_eq_none.mp found
    rw [Option.getD_none, Int.zero_add]
    constructor
    · rintro (⟨u, only, _⟩ | ⟨_, in_limit⟩)
      · exact absurd ⟨u, only⟩ no_start
      · exact in_limit
    · exact fun in_limit => Or.inr ⟨no_start, in_limit⟩
  | some u =>
    have only := fromLocal_iff.mp found
    have reads : u + z.offset u = start := (only u).mpr rfl
    rw [Option.getD_some]
    constructor
    · rintro (⟨u', only', after, within⟩ | ⟨no_start, _⟩)
      · have same : u = u' := (only' u).mp reads
        subst same
        rw [Zone.wall] at after within
        omega
      · exact absurd ⟨u, only⟩ no_start
    · rintro ⟨after, within⟩
      refine Or.inl ⟨u, only, ?_⟩
      rw [Zone.wall]
      omega

/-- A record is counted in the buckets of its hour and day exactly where both begin clearly. -/
theorem on_time_iff (env : Env) (now : Int) (rec : UsageRecord) (t : Int)
    (parsed : env.parseRfc3339 rec.ts = some t) :
    OnTime env now rec t ↔
      Clear env.zone t (startOfHour (env.zone.wall t)) 3600 ∧
        Clear env.zone t (startOfDay (env.zone.wall t)) (25 * 3600) := by
  have instant : instantOf env now rec = t := by rw [instantOf, parsed, Option.getD_some]
  rw [clear_iff, clear_iff, OnTime, hourTs, dayTs, instant]

theorem on_time_of_steady {env : Env} {now : Int} {rec : UsageRecord}
    (parsed : env.parseRfc3339 rec.ts = some t)
    (steady : ∀ u, env.zone.offset u = env.zone.offset t) : OnTime env now rec t := by
  have only (start : Int) : Only env.zone start (start - env.zone.offset t) := by
    intro v
    rw [Zone.wall, steady v]
    omega
  rw [on_time_iff env now rec t parsed]
  refine ⟨Or.inl ⟨_, only _, ?_⟩, Or.inl ⟨_, only _, ?_⟩⟩
  · rw [steady (_ - _), startOfHour]
    omega
  · rw [steady (_ - _), startOfDay]
    omega

theorem queryTimeseries_without_zero (env : Env) {now : Int} {range : Range}
    (late : range.seconds < now) (inner : AggregatorInner) :
    queryTimeseries env now inner range =
      queryTimeseries env now
        ⟨inner.hourBuckets.filter (·.ts ≠ 0), inner.dayBuckets.filter (·.ts ≠ 0)⟩ range := by
  have dropped (buckets : List BucketEntry) :
      (buckets.filter (·.ts ≠ 0)).filter (now - range.seconds ≤ ·.ts) =
        buckets.filter (now - range.seconds ≤ ·.ts) := by
    rw [List.filter_filter]
    apply List.filter_congr
    intro b _
    rw [Bool.eq_iff_iff, Bool.and_eq_true, decide_eq_true_eq, decide_eq_true_eq]
    omega
  cases range with
  | last24h => simp only [queryTimeseries, bucketsFor, dropped]
  | last7d => simp only [queryTimeseries, bucketsFor, dropped]
  | last30d => simp only [queryTimeseries, bucketsFor, dropped]

/-- New York around the first of November 2026: at six in the morning of universal time the clock
goes back from two to one. -/
def newYork : Zone where
  offset := fun t => if t < 1793512800 then -14400 else -18000
  offsets := [-14400, -18000]
  offset_mem := by
    intro t
    split_ifs <;> simp

def halfPastOne : UsageRecord where
  ts := "2026-11-01T05:30:00+00:00"
  keyId := 1
  credentialId := 5
  model := "claude-opus-4-7"
  inputTokens := 1000
  outputTokens := 200
  cacheCreationTokens := 0
  cacheReadTokens := 0
  credits := 0
  durationMs := 1500
  status := "success"

def Env.newYork : Env where
  parseRfc3339 := fun ts => if ts = halfPastOne.ts then some 1793511000 else none
  toRfc3339 := fun _ => halfPastOne.ts
  zone := UsageClock.newYork
  parseDate := fun date => if date = "2026-11-01" then some 20758 else none
  formatDate := fun _ => "2026-11-01"
  fromJson := fun _ => none
  toJson := fun _ => ""
  addF64 := fun a b => if a = 0 then b else a

/-- Two instants have the local time at which the hour begins, and the bucket is 0. -/
theorem repeated_hour_lost :
    Env.newYork.parseRfc3339 halfPastOne.ts = some 1793511000 ∧
      hourTs Env.newYork 1793511000 halfPastOne = 0 ∧
      ¬ OnTime Env.newYork 1793511000 halfPastOne 1793511000 := by
  have zero : hourTs Env.newYork 1793511000 halfPastOne = 0 := by decide
  refine ⟨by decide, zero, ?_⟩
  rintro ⟨⟨_, within⟩, _⟩
  rw [zero] at within
  omega

theorem on_time_iff_halfPastOne :
    OnTime Env.newYork 0 halfPastOne 1793511000 ↔
      Clear UsageClock.newYork 1793511000 (startOfHour (UsageClock.newYork.wall 1793511000)) 3600 ∧
        Clear UsageClock.newYork 1793511000 (startOfDay (UsageClock.newYork.wall 1793511000))
          (25 * 3600) :=
  on_time_iff Env.newYork 0 halfPastOne 1793511000 (by decide)

end KiroRs.Admin.UsageClock
