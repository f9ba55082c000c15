/- Path: KiroRs/Admin/TraceDb
   source: src/admin/trace_db.rs, src/security.rs
   digest: The records of traced requests in two tables, and what a query reads back of them. -/

import Mathlib.Data.List.Sort
import KiroRs.Lib.Search
import KiroRs.Lib.Tables
import KiroRs.Lib.Text

set_option autoImplicit false
set_option relaxedAutoImplicit false

namespace KiroRs.Admin.TraceDb

open KiroRs.Lib.Search
open KiroRs.Lib.Tables
open KiroRs.Lib.Text

/-- The constants of `trace_db::outcome`. -/
inductive Outcome where
  | success | quotaExhausted | accountThrottled | authFailed | transient | networkError
  | badRequest | unknown | streamInterrupted
  deriving DecidableEq, Repr

def Outcome.text : Outcome → String
  | .success => "success"
  | .quotaExhausted => "quota_exhausted"
  | .accountThrottled => "account_throttled"
  | .authFailed => "auth_failed"
  | .transient => "transient"
  | .networkError => "network_error"
  | .badRequest => "bad_request"
  | .unknown => "unknown"
  | .streamInterrupted => "stream_interrupted"

inductive FinalStatus where
  | success | error | interrupted
  deriving DecidableEq, Repr

def FinalStatus.text : FinalStatus → String
  | .success => "success"
  | .error => "error"
  | .interrupted => "interrupted"

structure TraceAttempt where
  attempt : Nat
  credentialId : Nat
  endpoint : String
  httpStatus : Option Nat
  outcome : Outcome
  errorSnippet : Option String
  durationMs : Nat
  deriving DecidableEq, Repr

structure TraceRecord where
  traceId : String
  ts : String
  keyId : Nat
  model : String
  isStream : Bool
  finalStatus : FinalStatus
  finalCredentialId : Nat
  errorType : Option Outcome
  errorMessage : Option String
  totalAttempts : Nat
  durationMs : Nat
  interruptedAfterBytes : Option Nat
  inputTokens : Nat
  outputTokens : Nat
  cacheCreationTokens : Nat
  cacheReadTokens : Nat
  attempts : List TraceAttempt
  deriving DecidableEq, Repr

def redacted : String := "[REDACTED]"

def redactMarkers : List String :=
  ["Bearer ", "bearer ", "sk-", "sk_", "csk_", "ksk_", "AKIA", "ASIA"]

/-- A secret ends here. -/
def endsSecret (c : Char) : Bool := isWhitespace c || ['"', '\'', ',', ';', ')', ']'].contains c

/-- Every round takes a marker at least, so there are no more of them than characters. -/
def redactAfterMarker (marker : List Char) : Nat → List Char → List Char
  | 0, rest => rest
  | rounds + 1, rest =>
    match splitFind marker rest with
    | none => rest
    | some (before, found) =>
      before ++ marker ++ redacted.toList ++
        redactAfterMarker marker rounds ((found.drop marker.length).dropWhile (!endsSecret ·))

def redactText (input : String) : String :=
  String.ofList (redactMarkers.foldl
    (fun out marker => redactAfterMarker marker.toList out.length out) input.toList)

def errorSnippetMax : Nat := 2048

/-- The longest beginning of so many bytes that ends between two characters. -/
def takeBytes : Nat → List Char → List Char
  | _, [] => []
  | bytes, c :: rest => if c.utf8Size ≤ bytes then c :: takeBytes (bytes - c.utf8Size) rest else []

def truncateSnippet (body : String) : Option String :=
  let trimmed := trim (redactText body)
  if trimmed.isEmpty then none
  else if trimmed.utf8ByteSize ≤ errorSnippetMax then some trimmed
  else some (String.ofList (takeBytes errorSnippetMax trimmed.toList) ++ "…(truncated)")

/-- A row of `traces`: a record without its attempts, and the second it began in. -/
structure TraceRow where
  record : TraceRecord
  tsEpoch : Int
  deriving DecidableEq, Repr

/-- A row of `trace_attempts`. -/
structure AttemptRow where
  traceId : String
  attempt : TraceAttempt
  deriving DecidableEq, Repr

def TraceRow.key (row : TraceRow) : String := row.record.traceId

def AttemptRow.key (row : AttemptRow) : String × Nat := (row.traceId, row.attempt.attempt)

structure TraceStore where
  traces : List TraceRow
  attempts : List AttemptRow
  enabled : Bool
  retentionDays : Nat
  deriving DecidableEq, Repr

/-- `tsEpoch` is the second that the `ts` of the record names. -/
def TraceStore.insert (store : TraceStore) (rec : TraceRecord) (tsEpoch : Int) : TraceStore :=
  if !store.enabled then store
  else
    { store with
      traces := put TraceRow.key store.traces ⟨{ rec with attempts := [] }, tsEpoch⟩
      attempts := putAll AttemptRow.key store.attempts
        (rec.attempts.map fun a => ⟨rec.traceId, a⟩) }

/-- The clock is in seconds. -/
def TraceStore.cleanup (store : TraceStore) (now : Int) : TraceStore :=
  let cutoff := now - store.retentionDays * 86400
  let old := (store.traces.filter (·.tsEpoch < cutoff)).map TraceRow.key
  { store with
    attempts := store.attempts.filter (·.traceId ∉ old)
    traces := store.traces.filter fun row => ¬ row.tsEpoch < cutoff }

structure TraceQuery where
  status : Option String := none
  errorType : Option String := none
  credentialId : Option Nat := none
  failedAttemptCredentialId : Option Nat := none
  model : Option String := none
  onlyFailed : Bool := false
  limit : Nat := 0
  offset : Nat := 0

def defaultQueryLimit : Nat := 200

def TraceStore.attemptsOf (store : TraceStore) (traceId : String) : List AttemptRow :=
  store.attempts.filter (·.traceId = traceId)

/-- The conditions of `build_where`. -/
def TraceStore.selects (store : TraceStore) (q : TraceQuery) (row : TraceRow) : Bool :=
  let r := row.record
  q.status.all (· == r.finalStatus.text) &&
    q.errorType.all (fun t => r.errorType.any (·.text == t)) &&
    q.credentialId.all (· == r.finalCredentialId) &&
    q.failedAttemptCredentialId.all (fun c => (store.attemptsOf r.traceId).any fun a =>
      a.attempt.credentialId == c && a.attempt.outcome != .success) &&
    q.model.all (· == r.model) &&
    (!q.onlyFailed || r.finalStatus != .success)

/-- The attempts of a trace, the first ones first. -/
def TraceStore.readAttempts (store : TraceStore) (traceId : String) : List TraceAttempt :=
  ((store.attemptsOf traceId).map (·.attempt)).insertionSort fun a b => a.attempt ≤ b.attempt

/-- A page of records, the newest ones first, and the number of all that are selected. -/
def TraceStore.queryInner (store : TraceStore) (q : TraceQuery) : List TraceRecord × Nat :=
  let rows := store.traces.filter (store.selects q)
  let limit := if q.limit = 0 then defaultQueryLimit else q.limit
  let page := ((rows.insertionSort fun a b => b.tsEpoch ≤ a.tsEpoch).drop q.offset).take limit
  (page.map fun row => { row.record with attempts := store.readAttempts row.record.traceId },
    rows.length)

section

variable {store : TraceStore} {rec : TraceRecord} {id : String}

theorem mem_traces_of_query {q : TraceQuery} (mem : rec ∈ (store.queryInner q).1) :
    ∃ row ∈ store.traces, row.record.traceId = rec.traceId ∧
      row.record.totalAttempts = rec.totalAttempts ∧
      rec.attempts = store.readAttempts rec.traceId := by
  obtain ⟨row, paged, rfl⟩ := List.mem_map.mp mem
  have sorted := List.mem_of_mem_drop (List.mem_of_mem_take paged)
  have selected := (List.mem_insertionSort _).mp sorted
  exact ⟨row, List.mem_of_mem_filter selected, rfl, rfl, rfl⟩

theorem exists_query_of_mem {row : TraceRow} (mem : row ∈ store.traces) :
    ∃ q, ∃ found ∈ (store.queryInner q).1, found.traceId = row.record.traceId := by
  refine ⟨{ limit := store.traces.length }, _, List.mem_map.mpr ⟨row, ?_, rfl⟩, rfl⟩
  have selected : row ∈ store.traces.filter (store.selects { limit := store.traces.length }) :=
    List.mem_filter.mpr ⟨mem, rfl⟩
  have some_rows : store.traces.length ≠ 0 := fun none => by
    rw [List.length_eq_zero_iff.mp none] at mem
    cases mem
  rw [if_neg some_rows, List.drop_zero, List.take_of_length_le]
  · exact (List.mem_insertionSort _).mpr selected
  · rw [List.length_insertionSort]
    exact List.length_filter_le ..

theorem perm_readAttempts : (store.readAttempts id).Perm ((store.attemptsOf id).map (·.attempt)) :=
  List.perm_insertionSort ..

/-- The rows of the attempts of a trace. -/
def rowsOf (id : String) (attempts : List TraceAttempt) : List AttemptRow :=
  attempts.map fun a => ⟨id, a⟩

theorem attempts_rowsOf (attempts : List TraceAttempt) :
    (rowsOf id attempts).map (·.attempt) = attempts := by
  unfold rowsOf
  rw [List.map_map]
  exact List.map_id attempts

theorem keys_rowsOf (attempts : List TraceAttempt) :
    (rowsOf id attempts).map AttemptRow.key = (attempts.map (·.attempt)).map fun n => (id, n) := by
  unfold rowsOf
  rw [List.map_map, List.map_map]
  rfl

/-- Attempts that are read back in the order they were put in have distinct numbers. -/
theorem nodup_of_readAttempts {attempts : List TraceAttempt}
    (filed : store.attemptsOf id = putAll AttemptRow.key [] (rowsOf id attempts))
    (back : store.readAttempts id = attempts) : (attempts.map (·.attempt)).Nodup := by
  have distinct : ((store.attemptsOf id).map AttemptRow.key).Nodup := by
    rw [filed]
    exact nodup_putAll List.nodup_nil
  have own : ∀ row ∈ store.attemptsOf id, row.key = (id, row.attempt.attempt) := by
    intro row mem
    have named := of_decide_eq_true (List.mem_filter.mp mem).2
    unfold AttemptRow.key
    rw [named]
  have numbered : ((store.attemptsOf id).map fun row => row.attempt.attempt).Nodup := by
    apply List.Nodup.of_map fun n => (id, n)
    rw [List.map_map]
    have same : (store.attemptsOf id).map ((fun n => (id, n)) ∘ fun row => row.attempt.attempt) =
        (store.attemptsOf id).map AttemptRow.key :=
      List.map_congr_left fun row mem => (own row mem).symm
    rw [same]
    exact distinct
  have read : (store.readAttempts id).Perm ((store.attemptsOf id).map (·.attempt)) :=
    perm_readAttempts
  have perm := read.map (·.attempt)
  rw [back, List.map_map] at perm
  exact perm.nodup_iff.mpr numbered

theorem readAttempts_of_range {attempts : List TraceAttempt} {n : Nat}
    (filed : store.attemptsOf id = putAll AttemptRow.key [] (rowsOf id attempts))
    (range : attempts.map (·.attempt) = List.range n) : store.readAttempts id = attempts := by
  have distinct : ((rowsOf id attempts).map AttemptRow.key).Nodup := by
    rw [keys_rowsOf, range]
    exact List.nodup_range.map fun a b same => congrArg Prod.snd same
  have all : store.attemptsOf id = rowsOf id attempts := by
    rw [filed, putAll_of_fresh distinct fun row _ r mem => by cases mem]
    exact List.nil_append _
  have ordered : attempts.Pairwise fun a b => a.attempt ≤ b.attempt := by
    have sorted : (attempts.map (·.attempt)).Pairwise (· ≤ ·) := by
      rw [range]
      exact List.pairwise_le_range
    exact List.pairwise_map.mp sorted
  unfold TraceStore.readAttempts
  rw [all, attempts_rowsOf]
  exact ordered.insertionSort_eq

theorem attemptsOf_insert_own {tsEpoch : Int} (enabled : store.enabled = true)
    (none : store.attemptsOf rec.traceId = []) :
    (store.insert rec tsEpoch).attemptsOf rec.traceId =
      putAll AttemptRow.key [] (rowsOf rec.traceId rec.attempts) := by
  unfold TraceStore.insert
  rw [enabled, if_neg (by decide), ← none]
  refine filter_putAll fun row mem => ?_
  obtain ⟨a, -, rfl⟩ := List.mem_map.mp mem
  exact decide_eq_true rfl

theorem attemptsOf_insert_other {tsEpoch : Int} (other : rec.traceId ≠ id) :
    (store.insert rec tsEpoch).attemptsOf id = store.attemptsOf id := by
  unfold TraceStore.insert
  split_ifs
  · rfl
  · refine filter_putAll_other ?_ ?_
    · intro row mem
      obtain ⟨a, -, rfl⟩ := List.mem_map.mp mem
      exact decide_eq_false other
    · intro row mem r named same
      obtain ⟨a, -, rfl⟩ := List.mem_map.mp mem
      have named : r.traceId = id := of_decide_eq_true named
      exact other ((congrArg Prod.fst same).symm.trans named)

theorem mem_traces_insert {tsEpoch : Int} {row : TraceRow}
    (mem : row ∈ (store.insert rec tsEpoch).traces) :
    row ∈ store.traces ∨ store.enabled = true ∧ row = ⟨{ rec with attempts := [] }, tsEpoch⟩ := by
  unfold TraceStore.insert at mem
  split_ifs at mem with disabled
  · exact .inl mem
  · rcases mem_put.mp mem with ⟨old, -⟩ | new
    · exact .inl old
    · exact .inr ⟨by simpa using disabled, new⟩

theorem mem_traces_cleanup {now : Int} {row : TraceRow} (mem : row ∈ (store.cleanup now).traces) :
    row ∈ store.traces := List.mem_of_mem_filter mem

theorem attemptsOf_cleanup {now epoch : Int} (same : ∀ row ∈ store.traces, row.key = id →
      row.tsEpoch = epoch) {row : TraceRow} (mem : row ∈ (store.cleanup now).traces)
    (named : row.key = id) : (store.cleanup now).attemptsOf id = store.attemptsOf id := by
  obtain ⟨before, recent⟩ := List.mem_filter.mp mem
  have kept : id ∉ (store.traces.filter
      (·.tsEpoch < now - store.retentionDays * 86400)).map TraceRow.key := by
    intro listed
    obtain ⟨row', old, named'⟩ := List.mem_map.mp listed
    obtain ⟨before', gone⟩ := List.mem_filter.mp old
    have recent := of_decide_eq_true recent
    have gone := of_decide_eq_true gone
    rw [same row before named] at recent
    rw [same row' before' named'] at gone
    exact recent gone
  unfold TraceStore.attemptsOf TraceStore.cleanup
  rw [List.filter_filter]
  apply List.filter_congr
  intro attempt _
  by_cases own : attempt.traceId = id
  · simp [own, kept]
  · simp [own]

theorem attemptsOf_cleanup_nil {now : Int} (none : store.attemptsOf id = []) :
    (store.cleanup now).attemptsOf id = [] := by
  unfold TraceStore.attemptsOf TraceStore.cleanup at *
  rw [List.filter_filter, List.filter_eq_nil_iff] at *
  intro row mem both
  exact none row mem ((Bool.and_eq_true _ _).mp both).1

end

end KiroRs.Admin.TraceDb
