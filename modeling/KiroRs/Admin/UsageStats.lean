/- Path: KiroRs/Admin/UsageStats
   source: src/admin/usage_stats.rs
   digest: The records of used tokens, the hourly and daily buckets they are counted in, and the
   rebuilding of the buckets from the logs. -/

import Mathlib.Data.UInt
import KiroRs.Lib.Text
import KiroRs.Lib.Windows

set_option autoImplicit false
set_option relaxedAutoImplicit false

namespace KiroRs.Admin.UsageStats

open KiroRs.Lib
open KiroRs.Lib.Text (startsWith endsWith trim)

/-- A record; the credits are an `f64` by its bits. -/
structure UsageRecord where
  ts : String
  keyId : Nat
  credentialId : Nat
  model : String
  inputTokens : UInt64
  outputTokens : UInt64
  cacheCreationTokens : UInt64
  cacheReadTokens : UInt64
  credits : UInt64
  durationMs : UInt64
  status : String
  deriving DecidableEq, Repr

/-- The result of a lookup of a local time: no instant has it, one has, or several have. -/
inductive LocalResult where
  | none
  | single (t : Int)
  | ambiguous (earliest latest : Int)
  deriving DecidableEq, Repr

/-- `LocalResult::single`. -/
def LocalResult.toOption : LocalResult → Option Int
  | single t => some t
  | _ => Option.none

/-- A time zone: the offset from UTC in seconds at every Unix second, and the offsets it uses. -/
structure Zone where
  offset : Int → Int
  offsets : List Int
  offset_mem : ∀ t, offset t ∈ offsets

namespace Zone

variable (z : Zone)

/-- The local time of an instant, as the seconds of its calendar date and clock. -/
def wall (t : Int) : Int := t + z.offset t

def instants (l : Int) : List Int := (z.offsets.dedup.map (l - ·)).filter (z.wall · = l)

def fromLocal (l : Int) : LocalResult :=
  match z.instants l with
  | [] => .none
  | [t] => .single t
  | t :: u :: rest => .ambiguous ((u :: rest).foldl min t) ((u :: rest).foldl max t)

end Zone

/-- The local date and hour, with no minutes and seconds. -/
def startOfHour (l : Int) : Int := l - l % 3600

/-- The local date at midnight. -/
def startOfDay (l : Int) : Int := l - l % 86400

/-- What the aggregator takes from outside: parsing and formatting of times, dates and records, the
local time zone, and the addition of floating point numbers. A date is its number of days. -/
structure Env where
  parseRfc3339 : String → Option Int
  toRfc3339 : Int → String
  zone : Zone
  parseDate : String → Option Int
  formatDate : Int → String
  fromJson : String → Option UsageRecord
  toJson : UsageRecord → String
  addF64 : UInt64 → UInt64 → UInt64

def retentionDays : Int := 31
def hourBuckets : Nat := 24 * 7
def dayBuckets : Nat := 31

structure BucketStats where
  inputTokens : UInt64 := 0
  outputTokens : UInt64 := 0
  cacheCreationTokens : UInt64 := 0
  cacheReadTokens : UInt64 := 0
  calls : UInt64 := 0
  errors : UInt64 := 0
  credits : UInt64 := 0
  deriving DecidableEq, Repr

def BucketStats.add (env : Env) (s : BucketStats) (rec : UsageRecord) : BucketStats where
  inputTokens := s.inputTokens + rec.inputTokens
  outputTokens := s.outputTokens + rec.outputTokens
  cacheCreationTokens := s.cacheCreationTokens + rec.cacheCreationTokens
  cacheReadTokens := s.cacheReadTokens + rec.cacheReadTokens
  credits := env.addF64 s.credits rec.credits
  calls := s.calls + 1
  errors := if rec.status ≠ "success" then s.errors + 1 else s.errors

structure BucketEntry where
  ts : Int
  overall : BucketStats := {}
  byModel : List (String × BucketStats) := []
  byCredential : List (Nat × BucketStats) := []
  deriving DecidableEq, Repr

def BucketEntry.opened (ts : Int) : BucketEntry := { ts }

/-- A record without a credential counts for no credential. -/
def BucketEntry.add (env : Env) (b : BucketEntry) (rec : UsageRecord) : BucketEntry :=
  { b with
    overall := b.overall.add env rec
    byModel := Windows.tally {} (BucketStats.add env) b.byModel rec.model rec
    byCredential :=
      if rec.credentialId ≠ 0 then
        Windows.tally {} (BucketStats.add env) b.byCredential rec.credentialId rec
      else b.byCredential }

def upsertBucket (env : Env) (buckets : List BucketEntry) (ts : Int) (rec : UsageRecord)
    (max : Nat) : List BucketEntry :=
  Windows.upsert BucketEntry.ts BucketEntry.opened (BucketEntry.add env) max buckets ts rec

structure AggregatorInner where
  hourBuckets : List BucketEntry := []
  dayBuckets : List BucketEntry := []
  deriving DecidableEq, Repr

/-- The instant of a record; without a timestamp that parses it is now. -/
def instantOf (env : Env) (now : Int) (rec : UsageRecord) : Int :=
  (env.parseRfc3339 rec.ts).getD now

/-- A lookup without a single result gives the bucket 0. -/
def hourTs (env : Env) (now : Int) (rec : UsageRecord) : Int :=
  let hourStart := env.zone.fromLocal (startOfHour (env.zone.wall (instantOf env now rec)))
  hourStart.toOption.getD 0

def dayTs (env : Env) (now : Int) (rec : UsageRecord) : Int :=
  let dayStart := env.zone.fromLocal (startOfDay (env.zone.wall (instantOf env now rec)))
  dayStart.toOption.getD 0

def ingest (env : Env) (now : Int) (inner : AggregatorInner) (rec : UsageRecord) :
    AggregatorInner where
  hourBuckets := upsertBucket env inner.hourBuckets (hourTs env now rec) rec hourBuckets
  dayBuckets := upsertBucket env inner.dayBuckets (dayTs env now rec) rec dayBuckets

/-- Records as they come, each at its own time. -/
def ingestAll (env : Env) (inner : AggregatorInner) (arrivals : List (Int × UsageRecord)) :
    AggregatorInner :=
  arrivals.foldl (fun inner p => ingest env p.1 inner p.2) inner

/-- An entry of the directory: its name where it is text, and its lines where it opens. A line that
cannot be read is the last one taken. -/
structure LogFile where
  name : Option String
  lines : Option (List (Option String))

def parseUsageLogFilename (env : Env) (name : String) : Option Int :=
  if startsWith name "usage_log." then
    let body := String.ofList (name.toList.drop 10)
    if endsWith body ".jsonl" then
      env.parseDate (String.ofList (body.toList.take (body.toList.length - 6)))
    else none
  else none

def logPath (env : Env) (date : Int) : String :=
  "usage_log." ++ env.formatDate date ++ ".jsonl"

def recordOf (env : Env) (line : String) : Option UsageRecord :=
  if (trim line).isEmpty then none else env.fromJson line

def recordsOf (env : Env) (cutoff : Int) (file : LogFile) : List UsageRecord :=
  match file.name.bind (parseUsageLogFilename env) with
  | none => []
  | some date =>
    if date < cutoff then []
    else
      match file.lines with
      | none => []
      | some lines => ((lines.takeWhile Option.isSome).filterMap id).filterMap (recordOf env)

/-- The files come in the order in which the directory is read. `now` is the clock at each record. -/
def rebuildFromLogs (env : Env) (today : Int) (now : Nat → Int) (dir : List LogFile)
    (inner : AggregatorInner) : AggregatorInner :=
  let records := dir.flatMap (recordsOf env (today - retentionDays))
  ingestAll env inner (records.zipIdx.map fun p => (now p.2, p.1))

inductive Range where
  | last24h | last7d | last30d
  deriving DecidableEq, Repr

def Range.seconds : Range → Int
  | last24h => 24 * 3600
  | last7d => 7 * 24 * 3600
  | last30d => 30 * 24 * 3600

def bucketsFor (inner : AggregatorInner) : Range → List BucketEntry
  | .last24h | .last7d => inner.hourBuckets
  | .last30d => inner.dayBuckets

/-- The points are sorted by the text of their time. -/
def queryTimeseries (env : Env) (now : Int) (inner : AggregatorInner) (range : Range) :
    List (String × BucketStats) :=
  let inRange := (bucketsFor inner range).filter (now - range.seconds ≤ ·.ts)
  (inRange.map fun b => (env.toRfc3339 b.ts, b.overall)).mergeSort fun a b => a.1 ≤ b.1

end KiroRs.Admin.UsageStats
