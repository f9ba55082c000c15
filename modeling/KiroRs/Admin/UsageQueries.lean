/- Path: KiroRs/Admin/UsageQueries
   source: src/admin/usage_stats.rs
   digest: The queries over the buckets: the distributions by model and by credential, the overview,
   and that all of them count the same records. -/

import KiroRs.Admin.UsageClock
import KiroRs.Admin.UsageOrder
import KiroRs.Lib.Tallies

set_option autoImplicit false
set_option relaxedAutoImplicit false

namespace KiroRs.Admin.UsageQueries

open KiroRs.Lib
open KiroRs.Lib.Tallies (amount merge)
open KiroRs.Lib.Windows (sortedKeys tallyAll)
open KiroRs.Admin.UsageStats
open KiroRs.Admin.UsageOrder
open KiroRs.Admin.UsageClock (Only fromLocal_iff)

@[ext]
structure ModelDistribution where
  model : String
  calls : UInt64
  inputTokens : UInt64
  outputTokens : UInt64
  deriving DecidableEq, Repr

@[ext]
structure CredentialDistribution where
  credentialId : Nat
  calls : UInt64
  inputTokens : UInt64
  outputTokens : UInt64
  errors : UInt64
  deriving DecidableEq, Repr

/-- The orders in which hash maps are iterated: those of a bucket, and the one of a query. -/
structure MapOrder where
  models : BucketEntry → List (String × BucketStats)
  credentials : BucketEntry → List (Nat × BucketStats)
  collected : {κ : Type} → List (κ × BucketStats) → List (κ × BucketStats)
  models_perm : ∀ b, (models b).Perm b.byModel
  credentials_perm : ∀ b, (credentials b).Perm b.byCredential
  collected_perm : ∀ {κ : Type} (acc : List (κ × BucketStats)), (collected acc).Perm acc

/-- What the distribution by model takes from a bucket. -/
def BucketStats.addModel (entry stats : BucketStats) : BucketStats :=
  { entry with
    inputTokens := entry.inputTokens + stats.inputTokens
    outputTokens := entry.outputTokens + stats.outputTokens
    calls := entry.calls + stats.calls }

/-- The distribution by credential has the errors too. -/
def BucketStats.addCredential (entry stats : BucketStats) : BucketStats :=
  { entry with
    inputTokens := entry.inputTokens + stats.inputTokens
    outputTokens := entry.outputTokens + stats.outputTokens
    calls := entry.calls + stats.calls
    errors := entry.errors + stats.errors }

def inRange (now : Int) (inner : AggregatorInner) (range : Range) : List BucketEntry :=
  (bucketsFor inner range).filter (now - range.seconds ≤ ·.ts)

def queryByModel (order : MapOrder) (now : Int) (inner : AggregatorInner) (range : Range) :
    List ModelDistribution :=
  let acc := merge {} BucketStats.addModel ((inRange now inner range).flatMap order.models)
  ((order.collected acc).map fun g =>
    ⟨g.1, g.2.calls, g.2.inputTokens, g.2.outputTokens⟩).mergeSort fun a b => b.calls ≤ a.calls

def queryByCredential (order : MapOrder) (now : Int) (inner : AggregatorInner) (range : Range) :
    List CredentialDistribution :=
  let acc := merge {} BucketStats.addCredential
    ((inRange now inner range).flatMap order.credentials)
  ((order.collected acc).map fun g =>
    ⟨g.1, g.2.calls, g.2.inputTokens, g.2.outputTokens, g.2.errors⟩).mergeSort
      fun a b => b.calls ≤ a.calls

structure OverviewStats where
  todayCalls : UInt64
  todayInputTokens : UInt64
  todayOutputTokens : UInt64
  todayErrors : UInt64
  todayCredits : UInt64
  weekCalls : UInt64
  weekInputTokens : UInt64
  weekOutputTokens : UInt64
  weekCredits : UInt64
  deriving DecidableEq, Repr

/-- The clock is read for the year, the month and the day of today, and for the week. -/
structure Readings where
  year : Int
  month : Int
  day : Int
  week : Int

/-- `mixedDate` is the midnight of the year, month and day of three local times, if there is such
a date. -/
def todayStart (env : Env) (mixedDate : Int → Int → Int → Option Int) (clock : Readings) : Int :=
  match mixedDate (env.zone.wall clock.year) (env.zone.wall clock.month)
    (env.zone.wall clock.day) with
  | none => 0
  | some midnight => (env.zone.fromLocal midnight).toOption.getD 0

def BucketStats.addToday (env : Env) (today overall : BucketStats) : BucketStats :=
  { today with
    inputTokens := today.inputTokens + overall.inputTokens
    outputTokens := today.outputTokens + overall.outputTokens
    calls := today.calls + overall.calls
    errors := today.errors + overall.errors
    credits := env.addF64 today.credits overall.credits }

def BucketStats.addWeek (env : Env) (week overall : BucketStats) : BucketStats :=
  { week with
    inputTokens := week.inputTokens + overall.inputTokens
    outputTokens := week.outputTokens + overall.outputTokens
    calls := week.calls + overall.calls
    credits := env.addF64 week.credits overall.credits }

def overview (env : Env) (mixedDate : Int → Int → Int → Option Int) (clock : Readings)
    (inner : AggregatorInner) : OverviewStats :=
  let since (cutoff : Int) := (inner.hourBuckets.filter (cutoff ≤ ·.ts)).map (·.overall)
  let today := (since (todayStart env mixedDate clock)).foldl (BucketStats.addToday env) {}
  let week := (since (clock.week - 7 * 24 * 3600)).foldl (BucketStats.addWeek env) {}
  { todayCalls := today.calls
    todayInputTokens := today.inputTokens
    todayOutputTokens := today.outputTokens
    todayErrors := today.errors
    todayCredits := today.credits
    weekCalls := week.calls
    weekInputTokens := week.inputTokens
    weekOutputTokens := week.outputTokens
    weekCredits := week.credits }

/-- The records of the buckets from a time on. -/
def keptSince (stamp : UsageRecord → Int) (bound : Nat) (cutoff : Int) (rs : List UsageRecord) :
    List UsageRecord :=
  rs.filter fun r => cutoff ≤ stamp r ∧ stamp r ∈ (sortedKeys (rs.map stamp)).rtake bound

def stampFor (env : Env) : Range → UsageRecord → Int
  | .last24h | .last7d => hourTs env 0
  | .last30d => dayTs env 0

def boundFor : Range → Nat
  | .last24h | .last7d => hourBuckets
  | .last30d => dayBuckets

def keptFor (env : Env) (now : Int) (range : Range) (rs : List UsageRecord) : List UsageRecord :=
  keptSince (stampFor env range) (boundFor range) (now - range.seconds) rs

def modelTotals (rs : List UsageRecord) (model : String) : ModelDistribution :=
  let own := total (rs.filter (·.model = model))
  ⟨model, own .calls, own .inputTokens, own .outputTokens⟩

def credentialTotals (rs : List UsageRecord) (id : Nat) : CredentialDistribution :=
  let own := total (rs.filter (credentialOf · = some id))
  ⟨id, own .calls, own .inputTokens, own .outputTokens, own .errors⟩

/-- A query counts the given records: each model and each credential has one row with the totals of
its records, rows with more calls come first, and the points of the time series add up. -/
structure Answers (env : Env) (order : MapOrder) (now : Int) (range : Range)
    (inner : AggregatorInner) (rs : List UsageRecord) : Prop where
  models : (queryByModel order now inner range).Perm
    ((rs.map (·.model)).dedup.map (modelTotals rs))
  models_sorted : (queryByModel order now inner range).Pairwise fun a b => b.calls ≤ a.calls
  credentials : (queryByCredential order now inner range).Perm
    ((rs.filterMap credentialOf).dedup.map (credentialTotals rs))
  credentials_sorted :
    (queryByCredential order now inner range).Pairwise fun a b => b.calls ≤ a.calls
  series : ((queryTimeseries env now inner range).map fun p => counters p.2).sum = total rs

/-- The two halves of an overview count the given records. -/
structure Overviews (stats : OverviewStats) (today week : List UsageRecord) : Prop where
  today_calls : stats.todayCalls = total today .calls
  today_input : stats.todayInputTokens = total today .inputTokens
  today_output : stats.todayOutputTokens = total today .outputTokens
  today_errors : stats.todayErrors = total today .errors
  week_calls : stats.weekCalls = total week .calls
  week_input : stats.weekInputTokens = total week .inputTokens
  week_output : stats.weekOutputTokens = total week .outputTokens

variable {env : Env} {order : MapOrder} {now cutoff : Int} {rs : List UsageRecord}
  {stamp : UsageRecord → Int} {bound : Nat} {buckets : List BucketEntry}

theorem total_apply (rs : List UsageRecord) (c : Counter) :
    total rs c = (rs.map (countersOf · c)).sum := by
  induction rs with
  | nil => rfl
  | cons r rs ih =>
    rw [List.map_cons, List.sum_cons, ← ih]
    rfl

abbrev KeepsRecords (env : Env) (stamp : UsageRecord → Int) (bound : Nat)
    (rs : List UsageRecord) (buckets : List BucketEntry) : Prop :=
  Windows.Keeps BucketEntry.ts BucketEntry.opened (BucketEntry.add env) stamp bound rs buckets

theorem mem_stamps (keeps : KeepsRecords env stamp bound rs buckets) (t : Int) :
    t ∈ (buckets.filter (cutoff ≤ ·.ts)).map (·.ts) ↔
      cutoff ≤ t ∧ t ∈ (sortedKeys (rs.map stamp)).rtake bound := by
  rw [← keeps.keys_eq]
  constructor
  · intro mem
    obtain ⟨b, here, rfl⟩ := List.mem_map.mp mem
    obtain ⟨here, late⟩ := List.mem_filter.mp here
    exact ⟨of_decide_eq_true late, List.mem_map_of_mem here⟩
  · rintro ⟨late, mem⟩
    obtain ⟨b, here, rfl⟩ := List.mem_map.mp mem
    exact List.mem_map_of_mem (List.mem_filter.mpr ⟨here, decide_eq_true late⟩)

theorem sum_since {M : Type} [AddCommMonoid M] (keeps : KeepsRecords env stamp bound rs buckets)
    (cutoff : Int) (select : UsageRecord → Bool) {worth : BucketEntry → M}
    {weight : UsageRecord → M}
    (each : ∀ b ∈ buckets,
      worth b = (((rs.filter (stamp · = b.ts)).filter select).map weight).sum) :
    ((buckets.filter (cutoff ≤ ·.ts)).map worth).sum =
      (((keptSince stamp bound cutoff rs).filter select).map weight).sum := by
  have distinct : ((buckets.filter (cutoff ≤ ·.ts)).map (·.ts)).Nodup :=
    (keeps.sorted.imp ne_of_lt).sublist (List.filter_sublist.map _)
  have by_key : (buckets.filter (cutoff ≤ ·.ts)).map worth =
      ((buckets.filter (cutoff ≤ ·.ts)).map (·.ts)).map fun t =>
        (((rs.filter select).filter (stamp · = t)).map weight).sum := by
    rw [List.map_map]
    apply List.map_congr_left
    intro b mem
    rw [each b (List.mem_filter.mp mem).1, List.filter_comm]
    rfl
  rw [by_key, Tallies.sum_over_keys distinct, keptSince, List.filter_comm]
  simp only [mem_stamps keeps]

theorem merged_groups {κ : Type} [DecidableEq κ] (keeps : KeepsRecords env stamp bound rs buckets)
    (cutoff : Int) (combine : BucketStats → BucketStats → BucketStats)
    {keyOf : UsageRecord → Option κ} {visited : BucketEntry → List (κ × BucketStats)}
    (grouped : ∀ b ∈ buckets, (visited b).Perm (tallyAll {} (BucketStats.add env) keyOf []
      (rs.filter (stamp · = b.ts)))) :
    ((merge {} combine ((buckets.filter (cutoff ≤ ·.ts)).flatMap visited)).map (·.1)).Perm
        ((keptSince stamp bound cutoff rs).filterMap keyOf).dedup ∧
      ∀ c, (∀ a b, counters (combine a b) c = counters a c + counters b c) →
        ∀ g ∈ merge {} combine ((buckets.filter (cutoff ≤ ·.ts)).flatMap visited),
          counters g.2 c =
            total ((keptSince stamp bound cutoff rs).filter (keyOf · = some g.1)) c := by
  obtain ⟨distinct, keys⟩ := Tallies.keys_merge {} combine
    ((buckets.filter (cutoff ≤ ·.ts)).flatMap visited)
  refine ⟨(List.perm_ext_iff_of_nodup distinct (List.nodup_dedup _)).mpr ?_, ?_⟩
  · intro k
    have visited_iff (b : BucketEntry) (mem : b ∈ buckets) : k ∈ (visited b).map (·.1) ↔
        ∃ r ∈ rs, stamp r = b.ts ∧ keyOf r = some k := by
      rw [((grouped b mem).map (·.1)).mem_iff, (Tallies.keys_tallyAll _).2]
      simp only [List.mem_filterMap, List.mem_filter, decide_eq_true_eq, and_assoc]
    rw [keys, List.mem_dedup, List.mem_filterMap, List.map_flatMap, List.mem_flatMap]
    constructor
    · rintro ⟨b, mem, here⟩
      obtain ⟨there, late⟩ := List.mem_filter.mp mem
      obtain ⟨r, recorded, same, keyed⟩ := (visited_iff b there).mp here
      have stamped := (mem_stamps keeps (stamp r)).mp (List.mem_map.mpr ⟨b, mem, same.symm⟩)
      exact ⟨r, List.mem_filter.mpr ⟨recorded, decide_eq_true stamped⟩, keyed⟩
    · rintro ⟨r, mem, keyed⟩
      obtain ⟨recorded, stamped⟩ := List.mem_filter.mp mem
      obtain ⟨b, there, same⟩ :=
        List.mem_map.mp ((mem_stamps keeps (stamp r)).mpr (of_decide_eq_true stamped))
      have here := (visited_iff b (List.mem_filter.mp there).1).mpr
        ⟨r, recorded, same.symm, keyed⟩
      exact ⟨b, there, here⟩
  · intro c additive g mem
    have start : counters {} c = 0 := congrFun counters_empty c
    have step (s : BucketStats) (r : UsageRecord) :
        counters (s.add env r) c = counters s c + countersOf r c := congrFun (counters_add s r) c
    rw [← Tallies.amount_of_mem (counters · c) distinct mem,
      Tallies.amount_merge (counters · c) start additive, Tallies.amount_flatMap, total_apply]
    apply sum_since keeps
    intro b there
    rw [Tallies.amount_perm (grouped b there), Tallies.amount_tallyAll (counters · c) start step]

theorem rows_perm {κ δ : Type} [DecidableEq κ] {acc : List (κ × BucketStats)} {keys : List κ}
    (held : (acc.map (·.1)).Perm keys) {row : κ × BucketStats → δ} {totals : κ → δ}
    (rows : ∀ g ∈ acc, row g = totals g.1) (le : δ → δ → Bool) :
    (((order.collected acc).map row).mergeSort le).Perm (keys.map totals) := by
  have by_key : acc.map row = (acc.map (·.1)).map totals := by
    rw [List.map_map]
    exact List.map_congr_left rows
  have collected := ((order.collected_perm acc).map row).trans (List.Perm.of_eq by_key)
  exact (List.mergeSort_perm _ _).trans (collected.trans (held.map totals))

theorem sorted_by_calls {δ : Type} (calls : δ → UInt64) (rows : List δ) :
    (rows.mergeSort fun a b => calls b ≤ calls a).Pairwise fun a b => calls b ≤ calls a := by
  have transitive (a b c : δ) (ab : decide (calls b ≤ calls a) = true)
      (bc : decide (calls c ≤ calls b) = true) : decide (calls c ≤ calls a) = true :=
    decide_eq_true (UInt64.le_trans (of_decide_eq_true bc) (of_decide_eq_true ab))
  have total (a b : δ) : (decide (calls b ≤ calls a) || decide (calls a ≤ calls b)) = true := by
    rw [Bool.or_eq_true, decide_eq_true_eq, decide_eq_true_eq]
    exact UInt64.le_total _ _
  exact (List.pairwise_mergeSort transitive total rows).imp of_decide_eq_true

theorem groups_of_held {b : BucketEntry} {own : List UsageRecord}
    (held : b = own.foldl (BucketEntry.add env) (.opened b.ts)) :
    b.byModel = tallyAll {} (BucketStats.add env) (fun r => some r.model) [] own ∧
      b.byCredential = tallyAll {} (BucketStats.add env) credentialOf [] own := by
  have models := congrArg BucketEntry.byModel held
  have credentials := congrArg BucketEntry.byCredential held
  rw [byModel_foldl] at models
  rw [byCredential_foldl] at credentials
  exact ⟨models, credentials⟩

theorem keeps_for {arrivals : List (Int × UsageRecord)} (valid : ∀ p ∈ arrivals, Valid env p.2)
    (range : Range) : KeepsRecords env (stampFor env range) (boundFor range) (arrivals.map (·.2))
      (bucketsFor (ingestAll env {} arrivals) range) := by
  obtain ⟨hours, days⟩ := keeps_ingestAll valid
  cases range with
  | last24h => exact hours
  | last7d => exact hours
  | last30d => exact days

theorem answers_of_keeps {inner : AggregatorInner} {range : Range}
    (keeps : KeepsRecords env (stampFor env range) (boundFor range) rs (bucketsFor inner range)) :
    Answers env order now range inner (keptFor env now range rs) := by
  have models := merged_groups keeps (now - range.seconds) BucketStats.addModel fun b mem =>
    (order.models_perm b).trans (List.Perm.of_eq (groups_of_held (keeps.summed b mem)).1)
  have credentials := merged_groups keeps (now - range.seconds) BucketStats.addCredential
    fun b mem => (order.credentials_perm b).trans
      (List.Perm.of_eq (groups_of_held (keeps.summed b mem)).2)
  refine ⟨?_, sorted_by_calls _ _, ?_, sorted_by_calls _ _, ?_⟩
  · rw [List.filterMap_eq_map'] at models
    refine rows_perm models.1 (fun g mem => ?_) _
    have held (c : Counter) (additive : ∀ a b,
        counters (BucketStats.addModel a b) c = counters a c + counters b c) :
        counters g.2 c = total ((keptFor env now range rs).filter (·.model = g.1)) c := by
      have own := models.2 c additive g mem
      simp only [Option.some.injEq] at own
      exact own
    exact ModelDistribution.ext rfl (held .calls fun _ _ => rfl) (held .inputTokens fun _ _ => rfl)
      (held .outputTokens fun _ _ => rfl)
  · refine rows_perm credentials.1 (fun g mem => ?_) _
    have held (c : Counter) (additive : ∀ a b,
        counters (BucketStats.addCredential a b) c = counters a c + counters b c) :
        counters g.2 c = total ((keptFor env now range rs).filter (credentialOf · = some g.1)) c :=
      credentials.2 c additive g mem
    exact CredentialDistribution.ext rfl (held .calls fun _ _ => rfl)
      (held .inputTokens fun _ _ => rfl) (held .outputTokens fun _ _ => rfl)
      (held .errors fun _ _ => rfl)
  · have points := ((List.mergeSort_perm ((inRange now inner range).map fun b =>
      (env.toRfc3339 b.ts, b.overall)) fun a b => a.1 ≤ b.1).map fun p => counters p.2).sum_eq
    rw [List.map_map] at points
    refine points.trans ?_
    have overall (b : BucketEntry) (mem : b ∈ bucketsFor inner range) : counters b.overall =
        (((rs.filter (stampFor env range · = b.ts)).filter fun _ => true).map countersOf).sum := by
      rw [List.filter_true]
      exact (sumsUp_foldl (keeps.summed b mem)).overall
    have all := sum_since keeps (now - range.seconds) (fun _ => true) overall
    rw [List.filter_true] at all
    exact all

theorem counters_since (combine : BucketStats → BucketStats → BucketStats) (c : Counter)
    (keeps : KeepsRecords env stamp bound rs buckets)
    (additive : ∀ a b, counters (combine a b) c = counters a c + counters b c) :
    counters (((buckets.filter (cutoff ≤ ·.ts)).map (·.overall)).foldl combine {}) c =
      total (keptSince stamp bound cutoff rs) c := by
  have start : counters {} c = 0 := congrFun counters_empty c
  have folded := @Windows.measure_foldl _ _ combine _ _ (counters · c) (counters · c) additive {}
    ((buckets.filter (cutoff ≤ ·.ts)).map (·.overall))
  have overall (b : BucketEntry) (mem : b ∈ buckets) : counters b.overall c =
      (((rs.filter (stamp · = b.ts)).filter fun _ => true).map (countersOf · c)).sum := by
    rw [List.filter_true, (sumsUp_foldl (keeps.summed b mem)).overall, total_apply]
  have all := sum_since keeps cutoff (fun _ => true) overall
  rw [List.filter_true] at all
  rw [folded, start, zero_add, List.map_map, total_apply]
  exact all

/-- All queries count the records of the buckets in their range, each of them once: the rows of
both distributions, the points of the time series and the overview agree with one another. -/
theorem queries_agree {arrivals : List (Int × UsageRecord)} (valid : ∀ p ∈ arrivals, Valid env p.2)
    (order : MapOrder) (mixedDate : Int → Int → Int → Option Int) :
    (∀ now range, Answers env order now range (ingestAll env {} arrivals)
      (keptFor env now range (arrivals.map (·.2)))) ∧
    ∀ clock, Overviews (overview env mixedDate clock (ingestAll env {} arrivals))
      (keptSince (hourTs env 0) hourBuckets (todayStart env mixedDate clock) (arrivals.map (·.2)))
      (keptFor env clock.week .last7d (arrivals.map (·.2))) := by
  refine ⟨fun now range => answers_of_keeps (keeps_for valid range), ?_⟩
  intro clock
  obtain ⟨hours, -⟩ := keeps_ingestAll valid
  constructor
  · exact counters_since (BucketStats.addToday env) .calls hours fun _ _ => rfl
  · exact counters_since (BucketStats.addToday env) .inputTokens hours fun _ _ => rfl
  · exact counters_since (BucketStats.addToday env) .outputTokens hours fun _ _ => rfl
  · exact counters_since (BucketStats.addToday env) .errors hours fun _ _ => rfl
  · exact counters_since (BucketStats.addWeek env) .calls hours fun _ _ => rfl
  · exact counters_since (BucketStats.addWeek env) .inputTokens hours fun _ _ => rfl
  · exact counters_since (BucketStats.addWeek env) .outputTokens hours fun _ _ => rfl

/-- How long a bucket lasts. -/
def period : Range → Int
  | .last24h | .last7d => 3600
  | .last30d => 86400

theorem stampFor_eq {offset : Int} (fixed : ∀ t, env.zone.offset t = offset) (range : Range)
    (r : UsageRecord) :
    stampFor env range r =
      (instantOf env 0 r + offset) / period range * period range - offset := by
  have single (l : Int) : (env.zone.fromLocal l).toOption.getD 0 = l - offset := by
    have only : Only env.zone l (l - offset) := by
      intro v
      rw [Zone.wall, fixed]
      omega
    rw [fromLocal_iff.mpr only, Option.getD_some]
  cases range with
  | last24h =>
    rw [stampFor, hourTs, single, startOfHour, Zone.wall, fixed, period]
    omega
  | last7d =>
    rw [stampFor, hourTs, single, startOfHour, Zone.wall, fixed, period]
    omega
  | last30d =>
    rw [stampFor, dayTs, single, startOfDay, Zone.wall, fixed, period]
    omega

theorem stamps_fit {offset : Int} (fixed : ∀ t, env.zone.offset t = offset)
    (past : ∀ r ∈ rs, instantOf env 0 r ≤ now) {range : Range}
    (between : range = .last7d → (now + offset) % 3600 ≠ 0) {t : Int}
    (late : now - range.seconds ≤ t) :
    ((sortedKeys (rs.map (stampFor env range))).filter (t ≤ ·)).length ≤ boundFor range := by
  have distinct : ((sortedKeys (rs.map (stampFor env range))).filter (t ≤ ·)).Nodup :=
    (Finset.sort_nodup _ _).filter _
  have held (x : Int) (mem : x ∈ (sortedKeys (rs.map (stampFor env range))).filter (t ≤ ·)) :
      t ≤ x ∧ ∃ i ≤ now, x = (i + offset) / period range * period range - offset := by
    obtain ⟨here, above⟩ := List.mem_filter.mp mem
    rw [sortedKeys, Finset.mem_sort, List.mem_toFinset] at here
    obtain ⟨r, recorded, rfl⟩ := List.mem_map.mp here
    exact ⟨of_decide_eq_true above, instantOf env 0 r, past r recorded, stampFor_eq fixed range r⟩
  cases range with
  | last24h =>
    refine (Tallies.length_le_of_grid distinct 3600 offset ((now + offset) / 3600 - 24) 25
      fun x mem => ?_).trans (by decide)
    obtain ⟨above, i, before, rfl⟩ := held x mem
    simp only [Range.seconds, period] at late above
    exact ⟨(i + offset) / 3600, by omega, by omega, rfl⟩
  | last7d =>
    have within := between rfl
    refine Tallies.length_le_of_grid distinct 3600 offset ((now + offset) / 3600 - 167) 168
      fun x mem => ?_
    obtain ⟨above, i, before, rfl⟩ := held x mem
    simp only [Range.seconds, period] at late above
    exact ⟨(i + offset) / 3600, by omega, by omega, rfl⟩
  | last30d =>
    refine Tallies.length_le_of_grid distinct 86400 offset ((now + offset) / 86400 - 30) 31
      fun x mem => ?_
    obtain ⟨above, i, before, rfl⟩ := held x mem
    simp only [Range.seconds, period] at late above
    exact ⟨(i + offset) / 86400, by omega, by omega, rfl⟩

/-- Where the clock is never changed and no record is from the future, nothing is missing: a query
counts all records whose bucket began in its range, and a bucket begins less than its period before
its records. Exactly on the hour the buckets of seven days are one too many. -/
theorem ranges_complete {arrivals : List (Int × UsageRecord)}
    (valid : ∀ p ∈ arrivals, Valid env p.2) {offset : Int}
    (fixed : ∀ t, env.zone.offset t = offset)
    (past : ∀ p ∈ arrivals, instantOf env 0 p.2 ≤ now) (range : Range)
    (between : range = .last7d → (now + offset) % 3600 ≠ 0) (order : MapOrder) :
    Answers env order now range (ingestAll env {} arrivals)
        ((arrivals.map (·.2)).filter (now - range.seconds ≤ stampFor env range ·)) ∧
      ∀ r, stampFor env range r ≤ instantOf env 0 r ∧
        instantOf env 0 r < stampFor env range r + period range := by
  have past_records : ∀ r ∈ arrivals.map (·.2), instantOf env 0 r ≤ now := by
    intro r mem
    obtain ⟨p, here, rfl⟩ := List.mem_map.mp mem
    exact past p here
  have all : keptFor env now range (arrivals.map (·.2)) =
      (arrivals.map (·.2)).filter (now - range.seconds ≤ stampFor env range ·) := by
    apply List.filter_congr
    intro r mem
    rw [Bool.eq_iff_iff, decide_eq_true_eq, decide_eq_true_eq, and_iff_left_iff_imp]
    intro late
    exact Tallies.mem_rtake_sortedKeys (List.mem_map_of_mem mem)
      (stamps_fit fixed past_records between late)
  refine ⟨all ▸ answers_of_keeps (keeps_for valid range), ?_⟩
  intro r
  rw [stampFor_eq fixed]
  cases range with
  | last24h =>
    rw [period]
    omega
  | last7d =>
    rw [period]
    omega
  | last30d =>
    rw [period]
    omega

/-- Maps iterated in the order of their groups. -/
def MapOrder.asHeld : MapOrder where
  models := BucketEntry.byModel
  credentials := BucketEntry.byCredential
  collected := id
  models_perm := fun _ => List.Perm.refl _
  credentials_perm := fun _ => List.Perm.refl _
  collected_perm := fun _ => List.Perm.refl _

theorem valid_twoRecords (p : Int × UsageRecord) (mem : p ∈ [(0, later), (0, earlier)]) :
    Valid Env.twoRecords p.2 := by
  rcases List.mem_pair.mp mem with rfl | rfl <;> decide

theorem queries_agree_twoRecords :
    Answers Env.twoRecords MapOrder.asHeld 1779454800 .last24h
        (ingestAll Env.twoRecords {} [(0, later), (0, earlier)])
        (keptFor Env.twoRecords 1779454800 .last24h [later, earlier]) ∧
      (overview Env.twoRecords (fun _ _ _ => some 1779408000) ⟨0, 0, 0, 1779454800⟩
          (ingestAll Env.twoRecords {} [(0, later), (0, earlier)])).todayErrors =
        total (keptSince (hourTs Env.twoRecords 0) hourBuckets 1779408000 [later, earlier])
          .errors := by
  obtain ⟨answers, overviews⟩ := queries_agree valid_twoRecords MapOrder.asHeld
    fun _ _ _ => some 1779408000
  exact ⟨answers 1779454800 .last24h, (overviews ⟨0, 0, 0, 1779454800⟩).today_errors⟩

theorem ranges_complete_twoRecords :
    Answers Env.twoRecords MapOrder.asHeld 1779455000 .last7d
      (ingestAll Env.twoRecords {} [(0, later), (0, earlier)]) [later, earlier] := by
  have past : ∀ p ∈ [((0 : Int), later), (0, earlier)],
      instantOf Env.twoRecords 0 p.2 ≤ 1779455000 := by
    intro p mem
    rcases List.mem_pair.mp mem with rfl | rfl <;> decide
  have universal (t : Int) : Env.twoRecords.zone.offset t = 0 := rfl
  have complete := (ranges_complete valid_twoRecords universal past .last7d (fun _ => by decide)
    MapOrder.asHeld).1
  have all : ([((0 : Int), later), (0, earlier)].map (·.2)).filter
      (1779455000 - Range.last7d.seconds ≤ stampFor Env.twoRecords .last7d ·) =
        [later, earlier] := by decide +kernel
  rwa [all] at complete

end KiroRs.Admin.UsageQueries
