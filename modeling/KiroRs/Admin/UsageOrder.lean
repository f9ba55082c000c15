/- Path: KiroRs/Admin/UsageOrder
   source: src/admin/usage_stats.rs
   digest: What the buckets hold of the records, in whatever order the records came. -/

import KiroRs.Admin.UsageStats

set_option autoImplicit false
set_option relaxedAutoImplicit false

namespace KiroRs.Admin.UsageOrder

open KiroRs.Lib
open KiroRs.Lib.Text (endsWith isBlank isBlank_append isBlank_of_trimChars startsWith trim)
open KiroRs.Admin.UsageStats

inductive Counter where
  | inputTokens | outputTokens | cacheCreationTokens | cacheReadTokens | calls | errors
  deriving DecidableEq, Repr

def counters (s : BucketStats) : Counter → UInt64
  | .inputTokens => s.inputTokens
  | .outputTokens => s.outputTokens
  | .cacheCreationTokens => s.cacheCreationTokens
  | .cacheReadTokens => s.cacheReadTokens
  | .calls => s.calls
  | .errors => s.errors

def countersOf (rec : UsageRecord) : Counter → UInt64
  | .inputTokens => rec.inputTokens
  | .outputTokens => rec.outputTokens
  | .cacheCreationTokens => rec.cacheCreationTokens
  | .cacheReadTokens => rec.cacheReadTokens
  | .calls => 1
  | .errors => if rec.status ≠ "success" then 1 else 0

def total (rs : List UsageRecord) : Counter → UInt64 := (rs.map countersOf).sum

/-- The total of some records as a group holds it: without records there is no group. -/
def totalOf (rs : List UsageRecord) : Option (Counter → UInt64) :=
  if rs = [] then none else some (total rs)

variable {env : Env} {rs rs' : List UsageRecord}

theorem counters_add (s : BucketStats) (rec : UsageRecord) :
    counters (s.add env rec) = counters s + countersOf rec := by
  funext c
  cases c with
  | errors =>
    simp only [counters, BucketStats.add, countersOf, Pi.add_apply]
    split_ifs
    · rfl
    · exact (add_zero _).symm
  | inputTokens => rfl
  | outputTokens => rfl
  | cacheCreationTokens => rfl
  | cacheReadTokens => rfl
  | calls => rfl

theorem counters_empty : counters {} = 0 := by
  funext c
  cases c <;> rfl

theorem total_perm (perm : rs.Perm rs') : total rs = total rs' := (perm.map countersOf).sum_eq

theorem totalOf_perm (perm : rs.Perm rs') : totalOf rs = totalOf rs' := by
  unfold totalOf
  rw [total_perm perm]
  by_cases empty : rs = []
  · rw [if_pos empty, if_pos (empty ▸ perm).nil_eq.symm]
  · have other : rs' ≠ [] := fun none => empty (none ▸ perm).eq_nil
    rw [if_neg empty, if_neg other]

theorem counters_foldl (s : BucketStats) (rs : List UsageRecord) :
    counters (rs.foldl (BucketStats.add env) s) = counters s + total rs :=
  Windows.measure_foldl counters_add s rs

/-- A bucket sums up the records of its time: overall, by model, and by credential for the records
with one. -/
structure SumsUp (stamp : UsageRecord → Int) (rs : List UsageRecord) (b : BucketEntry) :
    Prop where
  overall : counters b.overall = total (rs.filter (stamp · = b.ts))
  by_model : ∀ model, (b.byModel.lookup model).map counters =
    totalOf ((rs.filter (stamp · = b.ts)).filter (·.model = model))
  by_credential : ∀ id, (b.byCredential.lookup id).map counters =
    totalOf ((rs.filter (stamp · = b.ts)).filter fun r => r.credentialId ≠ 0 ∧ r.credentialId = id)
  models : (b.byModel.map fun g => counters g.2).sum = counters b.overall
  credentials : (b.byCredential.map fun g => counters g.2).sum =
    total ((rs.filter (stamp · = b.ts)).filter (·.credentialId ≠ 0))

/-- The buckets are those of the largest timestamps seen, up to the bound. -/
structure Summarises (stamp : UsageRecord → Int) (bound : Nat) (rs : List UsageRecord)
    (buckets : List BucketEntry) : Prop where
  stamps : buckets.map (·.ts) = (Windows.sortedKeys (rs.map stamp)).rtake bound
  sums : ∀ b ∈ buckets, SumsUp stamp rs b

/-- Both granularities; the stamps are those of records with a timestamp. -/
structure Counts (env : Env) (rs : List UsageRecord) (inner : AggregatorInner) : Prop where
  hours : Summarises (hourTs env 0) hourBuckets rs inner.hourBuckets
  days : Summarises (dayTs env 0) dayBuckets rs inner.dayBuckets

/-- Buckets with the same timestamp and the same counters. -/
structure SameEntry (b b' : BucketEntry) : Prop where
  ts : b.ts = b'.ts
  overall : counters b.overall = counters b'.overall
  by_model : ∀ model, (b.byModel.lookup model).map counters = (b'.byModel.lookup model).map counters
  by_credential : ∀ id,
    (b.byCredential.lookup id).map counters = (b'.byCredential.lookup id).map counters

def SameCounters (inner inner' : AggregatorInner) : Prop :=
  List.Forall₂ SameEntry inner.hourBuckets inner'.hourBuckets ∧
    List.Forall₂ SameEntry inner.dayBuckets inner'.dayBuckets

variable {stamp : UsageRecord → Int} {bound : Nat} {buckets buckets' : List BucketEntry}

theorem SumsUp.perm {b : BucketEntry} (sums : SumsUp stamp rs b) (perm : rs.Perm rs') :
    SumsUp stamp rs' b := by
  have here := perm.filter (stamp · = b.ts)
  refine ⟨?_, ?_, ?_, sums.models, ?_⟩
  · rw [sums.overall, total_perm here]
  · intro model
    rw [sums.by_model, totalOf_perm (here.filter _)]
  · intro id
    rw [sums.by_credential, totalOf_perm (here.filter _)]
  · rw [sums.credentials, total_perm (here.filter _)]

theorem Summarises.perm (sums : Summarises stamp bound rs buckets) (perm : rs.Perm rs') :
    Summarises stamp bound rs' buckets := by
  refine ⟨?_, fun b mem => (sums.sums b mem).perm perm⟩
  rw [sums.stamps, Windows.sortedKeys_of_perm (perm.map stamp)]

/-- A record but for its credits, which a log does not keep to the last bit. -/
def withoutCredits (rec : UsageRecord) : UsageRecord := { rec with credits := 0 }

theorem total_withoutCredits (rs : List UsageRecord) : total (rs.map withoutCredits) = total rs := by
  unfold total
  rw [List.map_map]
  exact congrArg List.sum (List.map_congr_left fun r _ => by funext c; cases c <;> rfl)

theorem totalOf_withoutCredits (rs : List UsageRecord) :
    totalOf (rs.map withoutCredits) = totalOf rs := by
  unfold totalOf
  simp only [List.map_eq_nil_iff, total_withoutCredits]

theorem filter_withoutCredits {p : UsageRecord → Bool} (same : ∀ r, p (withoutCredits r) = p r)
    (rs : List UsageRecord) : (rs.map withoutCredits).filter p = (rs.filter p).map withoutCredits := by
  rw [List.filter_map]
  exact congrArg (List.map withoutCredits) (List.filter_congr fun r _ => same r)

theorem sumsUp_withoutCredits (same : ∀ r, stamp (withoutCredits r) = stamp r) {b : BucketEntry} :
    SumsUp stamp (rs.map withoutCredits) b ↔ SumsUp stamp rs b := by
  have here : (rs.map withoutCredits).filter (fun r => decide (stamp r = b.ts)) =
      (rs.filter fun r => decide (stamp r = b.ts)).map withoutCredits :=
    filter_withoutCredits (fun r => by rw [same]) rs
  have group (p : UsageRecord → Bool) (alike : ∀ r, p (withoutCredits r) = p r) :
      ((rs.map withoutCredits).filter (fun r => decide (stamp r = b.ts))).filter p =
        ((rs.filter fun r => decide (stamp r = b.ts)).filter p).map withoutCredits := by
    rw [here, filter_withoutCredits alike]
  constructor
  · rintro ⟨overall, by_model, by_credential, models, credentials⟩
    refine ⟨?_, fun model => ?_, fun id => ?_, models, ?_⟩
    · rw [overall, here, total_withoutCredits]
    · rw [by_model, group _ fun _ => rfl, totalOf_withoutCredits]
    · rw [by_credential, group _ fun _ => rfl, totalOf_withoutCredits]
    · rw [credentials, group _ fun _ => rfl, total_withoutCredits]
  · rintro ⟨overall, by_model, by_credential, models, credentials⟩
    refine ⟨?_, fun model => ?_, fun id => ?_, models, ?_⟩
    · rw [overall, here, total_withoutCredits]
    · rw [by_model, group _ fun _ => rfl, totalOf_withoutCredits]
    · rw [by_credential, group _ fun _ => rfl, totalOf_withoutCredits]
    · rw [credentials, group _ fun _ => rfl, total_withoutCredits]

theorem summarises_withoutCredits (same : ∀ r, stamp (withoutCredits r) = stamp r) :
    Summarises stamp bound (rs.map withoutCredits) buckets ↔ Summarises stamp bound rs buckets := by
  have stamps : (rs.map withoutCredits).map stamp = rs.map stamp := by
    rw [List.map_map]
    exact List.map_congr_left fun r _ => same r
  constructor
  · rintro ⟨keys, sums⟩
    exact ⟨stamps ▸ keys, fun b mem => (sumsUp_withoutCredits same).mp (sums b mem)⟩
  · rintro ⟨keys, sums⟩
    exact ⟨stamps ▸ keys, fun b mem => (sumsUp_withoutCredits same).mpr (sums b mem)⟩

theorem Counts.perm {inner : AggregatorInner} (counts : Counts env rs inner) (perm : rs.Perm rs') :
    Counts env rs' inner := ⟨counts.hours.perm perm, counts.days.perm perm⟩

theorem counts_withoutCredits {inner : AggregatorInner} :
    Counts env (rs.map withoutCredits) inner ↔ Counts env rs inner := by
  constructor
  · rintro ⟨hours, days⟩
    exact ⟨(summarises_withoutCredits fun _ => rfl).mp hours,
      (summarises_withoutCredits fun _ => rfl).mp days⟩
  · rintro ⟨hours, days⟩
    exact ⟨(summarises_withoutCredits fun _ => rfl).mpr hours,
      (summarises_withoutCredits fun _ => rfl).mpr days⟩

theorem SumsUp.same {b b' : BucketEntry} (sums : SumsUp stamp rs b) (sums' : SumsUp stamp rs b')
    (ts : b.ts = b'.ts) : SameEntry b b' := by
  refine ⟨ts, ?_, ?_, ?_⟩
  · rw [sums.overall, sums'.overall, ts]
  · intro model
    rw [sums.by_model, sums'.by_model, ts]
  · intro id
    rw [sums.by_credential, sums'.by_credential, ts]

theorem Summarises.same (sums : Summarises stamp bound rs buckets)
    (sums' : Summarises stamp bound rs buckets') : List.Forall₂ SameEntry buckets buckets' := by
  have stamps : buckets.map (·.ts) = buckets'.map (·.ts) := sums.stamps.trans sums'.stamps.symm
  have stamps : List.Forall₂ (fun b b' => b.ts = b'.ts) buckets buckets' := by
    rw [← List.forall₂_eq_eq_eq] at stamps
    exact List.forall₂_map_left_iff.mp (List.forall₂_map_right_iff.mp stamps)
  refine List.forall₂_iff_zip.mpr ⟨stamps.length_eq, ?_⟩
  intro b b' mem
  obtain ⟨left, right⟩ := List.of_mem_zip mem
  exact (sums.sums b left).same (sums'.sums b' right) (List.forall₂_zip stamps mem)

theorem overall_foldl (b : BucketEntry) (rs : List UsageRecord) :
    (rs.foldl (BucketEntry.add env) b).overall = rs.foldl (BucketStats.add env) b.overall := by
  induction rs generalizing b with
  | nil => rfl
  | cons r rs ih => exact ih (b.add env r)

theorem byModel_foldl (b : BucketEntry) (rs : List UsageRecord) :
    (rs.foldl (BucketEntry.add env) b).byModel =
      Windows.tallyAll {} (BucketStats.add env) (fun r => some r.model) b.byModel rs := by
  induction rs generalizing b with
  | nil => rfl
  | cons r rs ih => exact ih (b.add env r)

def credentialOf (r : UsageRecord) : Option Nat :=
  if r.credentialId ≠ 0 then some r.credentialId else none

theorem byCredential_foldl (b : BucketEntry) (rs : List UsageRecord) :
    (rs.foldl (BucketEntry.add env) b).byCredential =
      Windows.tallyAll {} (BucketStats.add env) credentialOf b.byCredential rs := by
  induction rs generalizing b with
  | nil => rfl
  | cons r rs ih =>
    rw [List.foldl_cons, ih, Windows.tallyAll, Windows.tallyAll, List.foldl_cons]
    congr 1
    simp only [BucketEntry.add, credentialOf]
    split_ifs
    · rfl
    · rfl

theorem counters_group {keep : UsageRecord → Bool} {group : Option BucketStats}
    (held : group = if rs.filter keep = [] then none
      else some ((rs.filter keep).foldl (BucketStats.add env) {})) :
    group.map counters = totalOf (rs.filter keep) := by
  rw [held, totalOf]
  split_ifs with empty
  · rfl
  · rw [Option.map_some, counters_foldl, counters_empty, zero_add]

/-- Records added to a new bucket. -/
theorem sumsUp_foldl {b : BucketEntry}
    (held : b = (rs.filter (stamp · = b.ts)).foldl (BucketEntry.add env) (.opened b.ts)) :
    SumsUp stamp rs b := by
  have overall : b.overall =
      (rs.filter (stamp · = b.ts)).foldl (BucketStats.add env) {} := by
    rw [held, overall_foldl, ← held]
    rfl
  have models : b.byModel = Windows.tallyAll {} (BucketStats.add env) (fun r => some r.model) []
      (rs.filter (stamp · = b.ts)) := by
    rw [held, byModel_foldl, ← held]
    rfl
  have credentials : b.byCredential = Windows.tallyAll {} (BucketStats.add env) credentialOf []
      (rs.filter (stamp · = b.ts)) := by
    rw [held, byCredential_foldl, ← held]
    rfl
  have counted : counters b.overall = total (rs.filter (stamp · = b.ts)) := by
    rw [overall, counters_foldl, counters_empty, zero_add]
  refine ⟨counted, ?_, ?_, ?_, ?_⟩
  · intro model
    have group : b.byModel.lookup model = _ :=
      models ▸ Windows.lookup_tallyAll (rs.filter (stamp · = b.ts))
    have read := counters_group group
    simpa only [Option.some.injEq] using read
  · intro id
    have group : b.byCredential.lookup id = _ :=
      credentials ▸ Windows.lookup_tallyAll (rs.filter (stamp · = b.ts))
    have keyed (r : UsageRecord) :
        credentialOf r = some id ↔ r.credentialId ≠ 0 ∧ r.credentialId = id := by
      simp [credentialOf]
    have read := counters_group group
    simpa only [keyed] using read
  · rw [models, Windows.sum_tallyAll counters_empty counters_add, counted, total]
    simp
  · rw [credentials, Windows.sum_tallyAll counters_empty counters_add, total]
    congr 2
    apply List.filter_congr
    intro r _
    simp only [credentialOf]
    split_ifs with none
    · simp [none]
    · simp [none]

theorem summarises_of_keeps
    (keeps : Windows.Keeps BucketEntry.ts BucketEntry.opened (BucketEntry.add env) stamp bound rs
      buckets) : Summarises stamp bound rs buckets :=
  ⟨keeps.keys_eq, fun b mem => sumsUp_foldl (keeps.summed b mem)⟩

theorem key_add (b : BucketEntry) (r : UsageRecord) : (b.add env r).ts = b.ts := rfl

theorem key_opened (ts : Int) : (BucketEntry.opened ts).ts = ts := rfl

def Valid (env : Env) (r : UsageRecord) : Prop := (env.parseRfc3339 r.ts).isSome

instance (r : UsageRecord) : Decidable (Valid env r) :=
  inferInstanceAs (Decidable ((env.parseRfc3339 r.ts).isSome = true))

theorem instantOf_valid {r : UsageRecord} (valid : Valid env r) (now : Int) :
    instantOf env now r = instantOf env 0 r := by
  obtain ⟨t, parsed⟩ := Option.isSome_iff_exists.mp valid
  simp only [instantOf, parsed, Option.getD_some]

theorem keeps_ingestAll {arrivals : List (Int × UsageRecord)}
    (valid : ∀ p ∈ arrivals, Valid env p.2) :
    Windows.Keeps BucketEntry.ts BucketEntry.opened (BucketEntry.add env) (hourTs env 0)
        hourBuckets (arrivals.map (·.2)) (ingestAll env {} arrivals).hourBuckets ∧
      Windows.Keeps BucketEntry.ts BucketEntry.opened (BucketEntry.add env) (dayTs env 0)
        dayBuckets (arrivals.map (·.2)) (ingestAll env {} arrivals).dayBuckets := by
  induction arrivals using List.reverseRecOn with
  | nil => exact ⟨Windows.keeps_nil, Windows.keeps_nil⟩
  | append_singleton arrivals p ih =>
    obtain ⟨hours, days⟩ := ih fun q mem => valid q (List.mem_append_left _ mem)
    have instant := instantOf_valid (valid p (List.mem_append_right _ List.mem_cons_self)) p.1
    have hour : hourTs env p.1 p.2 = hourTs env 0 p.2 := by rw [hourTs, instant, hourTs]
    have day : dayTs env p.1 p.2 = dayTs env 0 p.2 := by rw [dayTs, instant, dayTs]
    have step : ingestAll env {} (arrivals ++ [p]) =
        ingest env p.1 (ingestAll env {} arrivals) p.2 := by
      rw [ingestAll, List.foldl_append]
      rfl
    rw [step, List.map_append, List.map_singleton]
    refine ⟨?_, ?_⟩
    · rw [ingest, upsertBucket, hour]
      exact hours.upsert key_add key_opened p.2
    · rw [ingest, upsertBucket, day]
      exact days.upsert key_add key_opened p.2

theorem counts_ingestAll {arrivals : List (Int × UsageRecord)} (valid : ∀ r ∈ rs, Valid env r)
    (perm : (arrivals.map (·.2)).Perm rs) : Counts env rs (ingestAll env {} arrivals) := by
  have valid_arrivals (p : Int × UsageRecord) (mem : p ∈ arrivals) : Valid env p.2 :=
    valid p.2 (perm.mem_iff.mp (List.mem_map_of_mem mem))
  obtain ⟨hours, days⟩ := keeps_ingestAll valid_arrivals
  exact ⟨(summarises_of_keeps hours).perm perm, (summarises_of_keeps days).perm perm⟩

def logFile (env : Env) (date : Int) (recs : List UsageRecord) : LogFile where
  name := some (logPath env date)
  lines := some (recs.map fun r => some (env.toJson r))

/-- A directory in the order in which it is read, and the records in its logs. Files that are no
logs and logs that are too old hold none. -/
inductive Logged (env : Env) (today : Int) : List LogFile → List UsageRecord → Prop where
  | nil : Logged env today [] []
  | foreign {file : LogFile} {dir : List LogFile} {rs : List UsageRecord}
      (skipped : ∀ date, file.name.bind (parseUsageLogFilename env) = some date →
        date < today - retentionDays)
      (rest : Logged env today dir rs) : Logged env today (file :: dir) rs
  | log {date : Int} {recs rs : List UsageRecord} {dir : List LogFile}
      (retained : today - retentionDays ≤ date)
      (dated : env.parseDate (env.formatDate date) = some date)
      (written : ∀ r ∈ recs, (trim (env.toJson r)).isEmpty = false ∧
        (env.fromJson (env.toJson r)).map withoutCredits = some (withoutCredits r))
      (rest : Logged env today dir rs) : Logged env today (logFile env date recs :: dir) (recs ++ rs)

theorem parse_logPath (date : Int) :
    parseUsageLogFilename env (logPath env date) = env.parseDate (env.formatDate date) := by
  have chars : (logPath env date).toList =
      "usage_log.".toList ++ ((env.formatDate date).toList ++ ".jsonl".toList) := by
    simp only [logPath, String.toList_append, List.append_assoc]
  have front : startsWith (logPath env date) "usage_log." = true := by
    rw [startsWith, chars]
    exact decide_eq_true (List.prefix_append _ _)
  have body : (logPath env date).toList.drop 10 =
      (env.formatDate date).toList ++ ".jsonl".toList := by
    have ten : "usage_log.".toList.length = 10 := by decide
    rw [chars, ← ten, List.drop_left]
  have back : endsWith (String.ofList ((env.formatDate date).toList ++ ".jsonl".toList))
      ".jsonl" = true := by
    have suffix : ".jsonl".toList <:+
        (String.ofList ((env.formatDate date).toList ++ ".jsonl".toList)).toList := by
      rw [String.toList_ofList, String.toList_ofList]
      exact List.suffix_append _ _
    exact decide_eq_true suffix
  have stem : (((env.formatDate date).toList ++ ".jsonl".toList).take
      (((env.formatDate date).toList ++ ".jsonl".toList).length - 6)) =
        (env.formatDate date).toList := by
    rw [List.length_append]
    exact List.take_left
  rw [parseUsageLogFilename, if_pos front]
  simp only [body]
  rw [if_pos back, String.toList_ofList, stem, String.ofList_toList]

theorem recordsOf_logFile {date cutoff : Int} {recs : List UsageRecord} (retained : cutoff ≤ date)
    (dated : env.parseDate (env.formatDate date) = some date)
    (written : ∀ r ∈ recs, (trim (env.toJson r)).isEmpty = false ∧
      (env.fromJson (env.toJson r)).map withoutCredits = some (withoutCredits r)) :
    (recordsOf env cutoff (logFile env date recs)).map withoutCredits = recs.map withoutCredits := by
  have all : ((recs.map fun r => some (env.toJson r)).takeWhile Option.isSome).filterMap id =
      recs.map env.toJson := by
    rw [List.takeWhile_eq_self_iff.mpr (by simp), List.filterMap_map]
    exact List.filterMap_eq_map ▸ rfl
  have read : ((recs.map env.toJson).filterMap (recordOf env)).map withoutCredits =
      recs.map withoutCredits := by
    rw [List.map_filterMap, List.filterMap_map, ← List.filterMap_eq_map]
    refine List.filterMap_congr fun r mem => ?_
    obtain ⟨solid, parsed⟩ := written r mem
    simp only [Function.comp_apply, recordOf, solid, Bool.false_eq_true, if_false, parsed]
  simp only [recordsOf, logFile, Option.bind_some, parse_logPath, dated]
  rw [if_neg (not_lt.mpr retained), all, read]

theorem Logged.records {today : Int} {dir : List LogFile} (logged : Logged env today dir rs) :
    (dir.flatMap (recordsOf env (today - retentionDays))).map withoutCredits =
      rs.map withoutCredits := by
  induction logged with
  | nil => rfl
  | foreign skipped _ ih =>
    rename_i file _ _ _
    have none_here : recordsOf env (today - retentionDays) file = [] := by
      cases parsed : file.name.bind (parseUsageLogFilename env) with
      | none => simp [recordsOf, parsed]
      | some date => simp [recordsOf, parsed, skipped date parsed]
    rw [List.flatMap_cons, none_here, List.nil_append, ih]
  | log retained dated written _ ih =>
    rw [List.flatMap_cons, List.map_append, recordsOf_logFile retained dated written, ih,
      List.map_append]

/-- In whatever order the records come, live or from the logs at first and live from then on, the
buckets hold the same counters: those of the largest timestamps, each with all of its records. -/
theorem order_independent (env : Env) (rs : List UsageRecord) (valid : ∀ r ∈ rs, Valid env r) :
    (∀ arrivals : List (Int × UsageRecord), (arrivals.map (·.2)).Perm rs →
      Counts env rs (ingestAll env {} arrivals)) ∧
    (∀ (today : Int) (now : Nat → Int) (dir : List LogFile) (written : List UsageRecord)
      (arrivals : List (Int × UsageRecord)), Logged env today dir written →
      (written ++ arrivals.map (·.2)).Perm rs →
      Counts env rs (ingestAll env (rebuildFromLogs env today now dir {}) arrivals)) ∧
    (∀ inner inner', Counts env rs inner → Counts env rs inner' → SameCounters inner inner') := by
  refine ⟨fun arrivals perm => counts_ingestAll valid perm, ?_, ?_⟩
  · intro today now dir written arrivals logged perm
    have alike := logged.records
    rw [rebuildFromLogs]
    generalize dir.flatMap (recordsOf env (today - retentionDays)) = read at alike
    have shuffled : ((read ++ arrivals.map (·.2)).map withoutCredits).Perm
        (rs.map withoutCredits) := by
      rw [List.map_append, alike, ← List.map_append]
      exact perm.map withoutCredits
    have valid_read : ∀ r ∈ read ++ arrivals.map (·.2), Valid env r := by
      intro r mem
      obtain ⟨r', mem', same⟩ :=
        List.mem_map.mp (shuffled.mem_iff.mp (List.mem_map_of_mem mem))
      unfold Valid
      have ts : (withoutCredits r').ts = (withoutCredits r).ts := by rw [same]
      exact (show r'.ts = r.ts from ts) ▸ valid r' mem'
    rw [ingestAll, ingestAll, ← List.foldl_append, ← ingestAll, ← counts_withoutCredits]
    refine (counts_withoutCredits.mpr (counts_ingestAll valid_read ?_)).perm shuffled
    rw [List.map_append, List.map_map]
    have records : read.zipIdx.map ((·.2) ∘ fun p => (now p.2, p.1)) = read :=
      List.zipIdx_map_fst 0 read
    rw [records]
  · intro inner inner' counts counts'
    exact ⟨counts.hours.same counts'.hours, counts.days.same counts'.days⟩

def earlier : UsageRecord where
  ts := "2026-05-22T10:15:00+00:00"
  keyId := 1
  credentialId := 5
  model := "claude-opus-4-7"
  inputTokens := 1000
  outputTokens := 200
  cacheCreationTokens := 0
  cacheReadTokens := 0
  credits := 0
  durationMs := 1500
  status := "success"

def later : UsageRecord :=
  { earlier with ts := "2026-05-22T12:40:00+00:00", credentialId := 0, status := "error" }

/-- The line of a record whose other fields are those of the two above. -/
def lineOf (r : UsageRecord) : String :=
  "\x7b\"ts\":\"" ++ r.ts ++ "\",\"keyId\":1,\"credentialId\":" ++ toString r.credentialId ++
    ",\"model\":\"claude-opus-4-7\",\"inputTokens\":1000,\"outputTokens\":200," ++
    "\"cacheCreationTokens\":0,\"cacheReadTokens\":0,\"credits\":0.0,\"durationMs\":1500," ++
    "\"status\":\"" ++ r.status ++ "\"\x7d"

theorem trim_lineOf (r : UsageRecord) : (trim (lineOf r)).isEmpty = false := by
  have front : isBlank "\x7b\"ts\":\"".toList = false := by decide
  have solid : isBlank (lineOf r).toList = false := by
    delta lineOf
    simp only [String.toList_append, isBlank_append, front, Bool.false_and]
  by_contra empty
  rw [Bool.not_eq_false, String.isEmpty_iff, trim, String.ofList_eq_empty_iff] at empty
  rw [isBlank_of_trimChars empty] at solid
  cases solid

def Env.twoRecords : Env where
  parseRfc3339 := fun ts =>
    if ts = earlier.ts then some 1779444900 else if ts = later.ts then some 1779453600 else none
  toRfc3339 := fun t => if t = 1779444900 then earlier.ts else later.ts
  zone := ⟨fun _ => 0, [0], fun _ => List.mem_singleton.mpr rfl⟩
  parseDate := fun date => if date = "2026-05-22" then some 20595 else none
  formatDate := fun _ => "2026-05-22"
  fromJson := fun line =>
    if line = lineOf earlier then some earlier else if line = lineOf later then some later else none
  toJson := lineOf
  addF64 := fun a b => if a = 0 then b else a

/-- Both live, the later one first; or the earlier one from its log and the later one live. -/
theorem order_independent_twoRecords :
    SameCounters (ingestAll Env.twoRecords {} [(0, later), (0, earlier)])
      (ingestAll Env.twoRecords
        (rebuildFromLogs Env.twoRecords 20600 (fun _ => 0) [logFile Env.twoRecords 20595 [earlier]]
          {}) [(0, later)]) := by
  have valid : ∀ r ∈ [earlier, later], Valid Env.twoRecords r := by
    intro r mem
    rcases List.mem_pair.mp mem with rfl | rfl <;> decide
  obtain ⟨live, rebuilt, same⟩ := order_independent Env.twoRecords [earlier, later] valid
  have written : ∀ r ∈ [earlier], (trim (Env.twoRecords.toJson r)).isEmpty = false ∧
      (Env.twoRecords.fromJson (Env.twoRecords.toJson r)).map withoutCredits =
        some (withoutCredits r) := by
    intro r mem
    rw [List.mem_singleton.mp mem]
    refine ⟨trim_lineOf earlier, ?_⟩
    simp only [Env.twoRecords, if_true, Option.map_some]
  have logged : Logged Env.twoRecords 20600 [logFile Env.twoRecords 20595 [earlier]]
      ([earlier] ++ []) :=
    Logged.log (by decide) (by decide) written Logged.nil
  have one := live [(0, later), (0, earlier)] (List.Perm.swap _ _ _)
  have other := rebuilt 20600 (fun _ => 0) _ _ [(0, later)] logged (List.Perm.refl _)
  exact same _ _ one other

end KiroRs.Admin.UsageOrder
