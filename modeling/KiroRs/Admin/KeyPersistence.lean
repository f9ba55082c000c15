/- Path: KiroRs/Admin/KeyPersistence
   source: src/admin/client_keys.rs
   digest: When the file of the client keys holds what the manager holds, and which ids it gives
   out, over runs with failed writes and restarts. -/

import KiroRs.Admin.ClientKeyRuns

set_option autoImplicit false
set_option relaxedAutoImplicit false

namespace KiroRs.Admin.KeyPersistence

open KiroRs.Lib
open KiroRs.Lib.Traces
open KiroRs.Admin.ClientKeys
open KiroRs.Admin.ClientKeyRuns (Op run Reaches readEntry_id inOrder)

variable (env : Env)

def readBack (file : Option (List ClientKey)) : Entries :=
  ((file.getD []).foldl (loadEntry env) {}).byId

structure Restored (e read : ClientKey) : Prop where
  id : read.id = e.id
  keyHash : read.keyHash = e.keyHash
  keyPrefix : read.keyPrefix = e.keyPrefix
  name : read.name = e.name
  description : read.description = e.description
  disabled : read.disabled = e.disabled
  createdAt : read.createdAt = e.createdAt
  lastUsedAt : read.lastUsedAt = e.lastUsedAt
  totalCalls : read.totalCalls = e.totalCalls
  totalInputTokens : read.totalInputTokens = e.totalInputTokens
  totalOutputTokens : read.totalOutputTokens = e.totalOutputTokens
  totalCacheCreationTokens : read.totalCacheCreationTokens = e.totalCacheCreationTokens
  totalCacheReadTokens : read.totalCacheReadTokens = e.totalCacheReadTokens
  totalCredits : read.totalCredits = e.totalCredits

/-- What is read are the entries in memory, no more and no less. -/
structure AllRestored (memory read : Entries) : Prop where
  each : ∀ id e, memory.lookup id = some e → ∃ r, read.lookup id = some r ∧ Restored e r
  others : ∀ id, memory.lookup id = none → read.lookup id = none

def Exact (credits : UInt64) : Prop := env.rereadF64 credits = credits

def AllExact (entries : Entries) : Prop :=
  ∀ id e, entries.lookup id = some e → Exact env e.totalCredits

/-- The sums of a file are read back alike again. -/
def ExactFile (file : Option (List ClientKey)) : Prop :=
  ∀ ck ∈ file.getD [], Exact env (env.rereadF64 ck.totalCredits)

/-- Loading the file makes the entries in memory, apart from a plaintext that is never stored. -/
def Saved (m : ClientKeyManager) : Prop :=
  ∀ id, (readBack env m.file).lookup id = (m.inner.entries.lookup id).map ClientKey.stored

def Keyed (entries : Entries) : Prop := ∀ id e, entries.lookup id = some e → e.id = id

variable {env} {m : ClientKeyManager} {file : Option (List ClientKey)} {id : Nat}

theorem Saved.allRestored {memory read : Entries}
    (saved : ∀ id, read.lookup id = (memory.lookup id).map ClientKey.stored) :
    AllRestored memory read where
  each := by
    intro id e held
    refine ⟨e.stored, ?_, ⟨rfl, rfl, rfl, rfl, rfl, rfl, rfl, rfl, rfl, rfl, rfl, rfl, rfl, rfl⟩⟩
    rw [saved id, held]
    rfl
  others := by
    intro id absent
    rw [saved id, absent]
    rfl

theorem stored_readEntry (ck : ClientKey) : (readEntry env ck).stored = readEntry env ck := by
  unfold readEntry scrub
  dsimp only
  split_ifs with empty blank
  · have key : ck.key = "" := String.isEmpty_iff.mp empty
    unfold ClientKey.stored
    rw [← key]
  · rfl
  · rfl

theorem credits_readEntry (ck : ClientKey) :
    (readEntry env ck).totalCredits = env.rereadF64 ck.totalCredits := by
  unfold readEntry scrub
  split_ifs <;> rfl

theorem readEntry_stored {ck : ClientKey} (exact : Exact env ck.totalCredits) :
    readEntry env ck.stored = ck.stored := by
  show scrub env { ck.stored with totalCredits := env.rereadF64 ck.totalCredits } = _
  rw [show env.rereadF64 ck.totalCredits = ck.totalCredits from exact]
  rfl

theorem lookup_foldl (entries : List ClientKey) (loop : LoadLoop) :
    (entries.foldl (loadEntry env) loop).byId.lookup id =
      match entries.reverse.find? (·.id = id) with
      | some ck => some (readEntry env ck)
      | none => loop.byId.lookup id := by
  induction entries generalizing loop with
  | nil => rfl
  | cons ck rest ih =>
    rw [List.foldl_cons, ih, List.reverse_cons, List.find?_append]
    cases rest.reverse.find? (·.id = id) with
    | some later => rfl
    | none =>
      show (loop.byId.insert ck.id (readEntry env ck)).lookup id = _
      by_cases here : ck.id = id
      · simp [here]
      · simp [here, AList.lookup_insert_ne (Ne.symm here)]

theorem lookup_readBack : (readBack env file).lookup id =
    ((file.getD []).reverse.find? (·.id = id)).map (readEntry env) := by
  unfold readBack
  rw [lookup_foldl]
  cases (file.getD []).reverse.find? (·.id = id) <;> rfl

theorem keyed_readBack : Keyed (readBack env file) := by
  intro id e found
  rw [lookup_readBack] at found
  obtain ⟨ck, is, rfl⟩ := Option.map_eq_some_iff.mp found
  have same := List.find?_some is
  rw [readEntry_id]
  simpa using same

theorem stored_readBack : ((readBack env file).lookup id).map ClientKey.stored =
    (readBack env file).lookup id := by
  rw [lookup_readBack, Option.map_map]
  congr 1
  funext ck
  exact stored_readEntry ck

theorem mem_list {inner : Inner} {ck : ClientKey} :
    ck ∈ list inner ↔ ∃ id, inner.entries.lookup id = some ck := by
  unfold list
  rw [(List.perm_insertionSort _ _).mem_iff, List.mem_map]
  constructor
  · rintro ⟨⟨id, e⟩, mem, rfl⟩
    exact ⟨id, AList.mem_lookup_iff.mpr mem⟩
  · rintro ⟨id, found⟩
    exact ⟨⟨id, ck⟩, AList.mem_lookup_iff.mp found, rfl⟩

theorem readBack_list {inner : Inner} (keyed : Keyed inner.entries)
    (exact : AllExact env inner.entries) :
    (readBack env (some ((list inner).map ClientKey.stored))).lookup id =
      (inner.entries.lookup id).map ClientKey.stored := by
  rw [lookup_readBack]
  rcases found : ((list inner).map ClientKey.stored).reverse.find? (·.id = id) with _ | ck
  · have absent : inner.entries.lookup id = none := by
      rcases held : inner.entries.lookup id with _ | e
      · rfl
      · have mem : e.stored ∈ ((list inner).map ClientKey.stored).reverse :=
          List.mem_reverse.mpr (List.mem_map_of_mem (mem_list.mpr ⟨id, held⟩))
        have missed := List.find?_eq_none.mp found e.stored mem
        have own : e.stored.id = id := keyed id e held
        simp [own] at missed
    rw [absent]
    exact congrArg (Option.map (readEntry env)) found
  · have same : ck.id = id := by simpa using List.find?_some found
    obtain ⟨e, mem, rfl⟩ := List.mem_map.mp (List.mem_reverse.mp (List.mem_of_find?_eq_some found))
    obtain ⟨other, held⟩ := mem_list.mp mem
    have own : other = id := (keyed other e held).symm.trans same
    rw [own] at held
    rw [held]
    refine (congrArg (Option.map (readEntry env)) found).trans ?_
    exact congrArg some (readEntry_stored (exact _ e held))

theorem saved_save (keyed : Keyed m.inner.entries)
    (exact : AllExact env m.inner.entries) :
    Saved env (saveLocked true m) :=
  fun _ => readBack_list keyed exact

theorem exact_readBack (exact : ExactFile env file) {e : ClientKey}
    (found : (readBack env file).lookup id = some e) : Exact env e.totalCredits := by
  rw [lookup_readBack] at found
  obtain ⟨ck, is, rfl⟩ := Option.map_eq_some_iff.mp found
  rw [credits_readEntry]
  exact exact ck (List.mem_reverse.mp (List.mem_of_find?_eq_some is))

theorem load_spec (exact : ExactFile env file) (written : Bool) :
    (load env file written).inner.entries = readBack env file ∧
      Saved env (load env file written) := by
  unfold load
  dsimp only
  split_ifs
  · refine ⟨rfl, ?_⟩
    cases written with
    | true => exact saved_save keyed_readBack fun id e => exact_readBack exact
    | false => exact fun id => stored_readBack.symm
  · exact ⟨rfl, fun id => stored_readBack.symm⟩

theorem exactFile_save {written : Bool}
    (exact : AllExact env m.inner.entries)
    (filed : ExactFile env m.file) : ExactFile env (saveLocked written m).file := by
  cases written with
  | false => exact filed
  | true =>
    intro ck mem
    obtain ⟨e, listed, rfl⟩ := List.mem_map.mp mem
    obtain ⟨id, held⟩ := mem_list.mp listed
    have same : Exact env e.totalCredits := exact id e held
    show Exact env (env.rereadF64 e.totalCredits)
    rw [show env.rereadF64 e.totalCredits = e.totalCredits from same]
    exact same

theorem exactFile_load (exact : ExactFile env file) (written : Bool) :
    ExactFile env (load env file written).file := by
  unfold load
  dsimp only
  split_ifs
  · exact exactFile_save (fun id e => exact_readBack exact) exact
  · exact exact

theorem nextId_load (written : Bool) : (load env file written).inner.nextId =
    (((file.getD []).foldl (loadEntry env) {}).maxId + 1) % 2 ^ 64 := by
  unfold load
  dsimp only
  split_ifs <;> rfl

theorem maxId_spec (entries : List ClientKey) (loop : LoadLoop) :
    loop.maxId ≤ (entries.foldl (loadEntry env) loop).maxId ∧
    (∀ ck ∈ entries, ck.id ≤ (entries.foldl (loadEntry env) loop).maxId) ∧
    ((entries.foldl (loadEntry env) loop).maxId = loop.maxId ∨
      ∃ ck ∈ entries, ck.id = (entries.foldl (loadEntry env) loop).maxId) := by
  induction entries generalizing loop with
  | nil => exact ⟨le_refl _, fun ck mem => (List.not_mem_nil mem).elim, Or.inl rfl⟩
  | cons ck rest ih =>
    obtain ⟨above, each, reached⟩ := ih (loadEntry env loop ck)
    have first : (loadEntry env loop ck).maxId = max loop.maxId ck.id := rfl
    rw [List.foldl_cons]
    rw [first] at above reached
    refine ⟨(le_max_left _ _).trans above, fun other mem => ?_, ?_⟩
    · rcases List.mem_cons.mp mem with rfl | mem
      · exact (le_max_right _ _).trans above
      · exact each other mem
    · rcases reached with same | ⟨other, mem, same⟩
      · rcases Nat.le_total ck.id loop.maxId with left | right
        · exact Or.inl (same.trans (Nat.max_eq_left left))
        · exact Or.inr ⟨ck, List.mem_cons_self, (same.trans (Nat.max_eq_right right)).symm⟩
      · exact Or.inr ⟨other, List.mem_cons_of_mem _ mem, same⟩

theorem nextId_above (small : ∀ ck ∈ file.getD [], ck.id + 1 < 2 ^ 64) (written : Bool) :
    0 < (load env file written).inner.nextId ∧
      ∀ ck ∈ file.getD [], ck.id < (load env file written).inner.nextId := by
  have bound : _ ∧ _ ∧ _ := @maxId_spec env (file.getD []) {}
  obtain ⟨-, each, reached⟩ := bound
  rw [nextId_load]
  have room : ((file.getD []).foldl (loadEntry env) {}).maxId + 1 < 2 ^ 64 := by
    rcases reached with none | ⟨ck, mem, same⟩
    · rw [none]
      decide
    · rw [← same]
      exact small ck mem
  rw [Nat.mod_eq_of_lt room]
  exact ⟨Nat.succ_pos _, fun ck mem => Nat.lt_succ_of_le (each ck mem)⟩

def Matches (env : Env) (m : ClientKeyManager) (presented : String) (ck : ClientKey) :
    Prop :=
  ∃ id, m.inner.entries.lookup id = some ck ∧ matchesKey env presented ck = true

/-- The step loses nothing: every write succeeds, a key is only used while the flag is set (or when
its old hash makes the manager write), a sum of credits can be read back, and a restart finds the
last id still in the file. -/
def Careful (env : Env) (m : ClientKeyManager) : Op → Prop
  | .create _ _ _ _ written => written = true ∧ m.inner.nextId + 1 < 2 ^ 64
  | .delete id written | .setDisabled id _ written | .updateMeta id _ _ written
  | .resetStats id written => (m.inner.entries.lookup id).isSome → written = true
  | .verifyAndTouch _ presented _ written => Text.startsWith presented clientKeyPrefix = true →
    ∀ ck, Matches env m presented ck →
      (m.inner.dirtyUsage = true ∨ ∃ old, Matches env m presented old ∧
        old.keyHash = legacySha256Hash env presented) ∧
      (ck.keyHash = legacySha256Hash env presented → written = true)
  | .recordUsage id _ _ _ _ credits _ => ∀ e, m.inner.entries.lookup id = some e →
    isFinitePositive credits = true → Exact env (env.addF64 e.totalCredits credits)
  | .flush written => m.inner.dirtyUsage = true → written = true
  | .restart _ => (∀ ck ∈ m.file.getD [], ck.id + 1 < 2 ^ 64) ∧
    (m.inner.nextId ≤ 1 ∨ ∃ ck ∈ m.file.getD [], m.inner.nextId ≤ ck.id + 1)

/-- While the flag is clear the file is up to date, and all sums of credits can be read back. -/
structure UpToDate (env : Env) (m : ClientKeyManager) : Prop where
  keyed : Keyed m.inner.entries
  exact : AllExact env m.inner.entries
  filed : ExactFile env m.file
  saved : m.inner.dirtyUsage = false → Saved env m

theorem UpToDate.save {inner : Inner} (keyed : Keyed inner.entries)
    (exact : AllExact env inner.entries)
    (filed : ExactFile env m.file) {written : Bool} (succeeds : written = true) :
    UpToDate env (saveLocked written { m with inner := inner }) := by
  subst succeeds
  refine ⟨keyed, exact, ?_, fun _ => saved_save keyed exact⟩
  exact exactFile_save (m := { m with inner := inner }) exact filed

theorem forall_insert {entries : Entries} {property : Nat → ClientKey → Prop} {e : ClientKey}
    (each : ∀ id e, entries.lookup id = some e → property id e) (new : property id e)
    (other : Nat) (f : ClientKey) (found : (entries.insert id e).lookup other = some f) :
    property other f := by
  by_cases here : other = id
  · subst here
    rw [AList.lookup_insert] at found
    cases found
    exact new
  · rw [AList.lookup_insert_ne here] at found
    exact each other f found

theorem forall_erase {entries : Entries} {property : Nat → ClientKey → Prop}
    (each : ∀ id e, entries.lookup id = some e → property id e) (other : Nat) (f : ClientKey)
    (found : (entries.erase id).lookup other = some f) : property other f := by
  by_cases here : other = id
  · subst here
    rw [AList.lookup_erase] at found
    cases found
  · rw [AList.lookup_erase_ne here] at found
    exact each other f found

theorem Keyed.insert {entries : Entries} (keyed : Keyed entries) {e : ClientKey} (own : e.id = id) :
    Keyed (entries.insert id e) := forall_insert keyed own

theorem Keyed.erase {entries : Entries} (keyed : Keyed entries) : Keyed (entries.erase id) :=
  forall_erase keyed

theorem AllExact.insert {entries : Entries} (exact : AllExact env entries) {e : ClientKey}
    (own : Exact env e.totalCredits) : AllExact env (entries.insert id e) :=
  forall_insert exact own

theorem AllExact.erase {entries : Entries} (exact : AllExact env entries) :
    AllExact env (entries.erase id) := forall_erase exact

theorem upToDate_updateEntry (upToDate : UpToDate env m) {f : ClientKey → ClientKey}
    (own : ∀ e, (f e).id = e.id)
    (credits : ∀ e, Exact env e.totalCredits → Exact env (f e).totalCredits) {written : Bool}
    (succeeds : (m.inner.entries.lookup id).isSome → written = true) :
    UpToDate env (updateEntry f id written m).1 := by
  unfold updateEntry
  cases held : m.inner.entries.lookup id with
  | none => exact upToDate
  | some e =>
    rw [held] at succeeds
    have keyed := upToDate.keyed.insert ((own e).trans (upToDate.keyed id e held))
    exact UpToDate.save keyed
      (upToDate.exact.insert (credits e (upToDate.exact id e held))) upToDate.filed
      (succeeds rfl)

theorem scan_spec (presented : String) (entries : List (Sigma fun _ : Nat => ClientKey))
    (scan : Scan) :
    ((entries.foldl (scanEntry env presented) scan).hitId.isSome →
      scan.hitId.isSome ∨ ∃ p ∈ entries, matchesKey env presented p.2 = true) ∧
    ((entries.foldl (scanEntry env presented) scan).legacyHitHash.isSome ↔
      scan.legacyHitHash.isSome ∨ ∃ p ∈ entries, matchesKey env presented p.2 = true ∧
        p.2.keyHash = legacySha256Hash env presented) := by
  induction entries generalizing scan with
  | nil => simp
  | cons p rest ih =>
    obtain ⟨hit, legacy⟩ := ih (scanEntry env presented scan p)
    rw [List.foldl_cons]
    refine ⟨fun found => ?_, legacy.trans ?_⟩
    · rcases hit found with first | ⟨q, mem, is⟩
      · by_cases matched : matchesKey env presented p.2 = true
        · exact Or.inr ⟨p, List.mem_cons_self, matched⟩
        · rw [scanEntry, if_neg matched] at first
          exact Or.inl first
      · exact Or.inr ⟨q, List.mem_cons_of_mem _ mem, is⟩
    · simp only [List.mem_cons, exists_eq_or_imp]
      by_cases matched : matchesKey env presented p.2 = true
      · by_cases old : p.2.keyHash = legacySha256Hash env presented
        · simp [scanEntry, matched, old]
        · simp [scanEntry, matched, old]
      · simp [scanEntry, matched]

theorem matches_of_visited {order : VisitOrder} {presented : String}
    {p : Sigma fun _ : Nat => ClientKey} (mem : p ∈ order.visit m.inner.entries.entries)
    (matched : matchesKey env presented p.2 = true) : Matches env m presented p.2 := by
  have present := (order.visit_perm m.inner.entries.entries).mem_iff.mp mem
  exact ⟨p.1, AList.mem_lookup_iff.mpr present, matched⟩

theorem upToDate_verify (upToDate : UpToDate env m) {order : VisitOrder}
    {presented now : String} {written : Bool}
    (careful : Careful env m (.verifyAndTouch order presented now written)) :
    UpToDate env (verifyAndTouch env order presented now written m).1 := by
  have told : _ ∧ _ := @scan_spec env presented (order.visit m.inner.entries.entries) {}
  obtain ⟨hit, legacy⟩ := told
  unfold verifyAndTouch
  by_cases starts : Text.startsWith presented clientKeyPrefix = true
  · have careful := careful starts
    rw [if_neg (by simp [starts])]
    dsimp only
    generalize scanned : (order.visit m.inner.entries.entries).foldl
      (scanEntry env presented) {} = scan at hit legacy
    cases found : scan.hitId with
    | none => exact upToDate
    | some id =>
      dsimp only
      have keyed : Keyed (match m.inner.entries.lookup id with
          | some e =>
            m.inner.entries.insert id (touch env presented now scan.legacyHitHash.isSome e)
          | none => m.inner.entries) := by
        cases held : m.inner.entries.lookup id with
        | none => exact upToDate.keyed
        | some e => exact upToDate.keyed.insert (upToDate.keyed id e held)
      have exact : AllExact env (match m.inner.entries.lookup id with
          | some e =>
            m.inner.entries.insert id (touch env presented now scan.legacyHitHash.isSome e)
          | none => m.inner.entries) := by
        cases held : m.inner.entries.lookup id with
        | none => exact upToDate.exact
        | some e => exact upToDate.exact.insert (upToDate.exact id e held)
      obtain ⟨p, mem, matched⟩ := (hit (by rw [found]; rfl)).resolve_left (by simp)
      obtain ⟨used, -⟩ := careful p.2 (matches_of_visited mem matched)
      cases upgrade : scan.legacyHitHash with
      | none =>
        rw [upgrade] at keyed exact
        refine ⟨keyed, exact, upToDate.filed, fun clear => ?_⟩
        exfalso
        rcases used with set | ⟨old, ⟨other, held, again⟩, is_old⟩
        · exact absurd (set.symm.trans clear) (by decide)
        · have visited : (⟨other, old⟩ : Sigma fun _ : Nat => ClientKey) ∈
              order.visit m.inner.entries.entries :=
            (order.visit_perm _).mem_iff.mpr (AList.mem_lookup_iff.mp held)
          have some := legacy.mpr (Or.inr ⟨_, visited, again, is_old⟩)
          rw [upgrade] at some
          cases some
      | some hash =>
        rw [upgrade] at keyed exact legacy
        obtain ⟨q, mem, again, is_old⟩ := (legacy.mp rfl).resolve_left (by simp)
        exact UpToDate.save keyed exact upToDate.filed
          ((careful q.2 (matches_of_visited mem again)).2 is_old)
  · rw [if_pos (by simpa using starts)]
    exact upToDate

theorem upToDate_step (zero : Exact env 0) (upToDate : UpToDate env m) {op : Op}
    (careful : Careful env m op) : UpToDate env (run env m op) := by
  cases op with
  | create token name description now written =>
    refine UpToDate.save ?_ ?_ upToDate.filed careful.1
    · dsimp only
      exact upToDate.keyed.insert rfl
    · exact upToDate.exact.insert zero
  | delete id written =>
    show UpToDate env (delete id written m).1
    unfold delete
    have careful : (m.inner.entries.lookup id).isSome → written = true := careful
    cases held : m.inner.entries.lookup id with
    | none => exact upToDate
    | some e =>
      rw [held] at careful
      exact UpToDate.save upToDate.keyed.erase upToDate.exact.erase upToDate.filed
        (careful rfl)
  | setDisabled id disabled written =>
    refine upToDate_updateEntry upToDate (fun e => ?_) (fun e exact => ?_) careful
    · rfl
    · exact exact
  | updateMeta id name description written =>
    refine upToDate_updateEntry upToDate (fun e => ?_) (fun e exact => ?_) careful
    · rfl
    · exact exact
  | resetStats id written =>
    refine upToDate_updateEntry upToDate (fun e => ?_) (fun e _ => ?_) careful
    · rfl
    · exact zero
  | verifyAndTouch order presented now written => exact upToDate_verify upToDate careful
  | recordUsage id input output creation read credits now =>
    have careful : ∀ e, m.inner.entries.lookup id = some e → isFinitePositive credits = true →
      Exact env (env.addF64 e.totalCredits credits) := careful
    have entries : (run env m (.recordUsage id input output creation read credits now)).inner.entries =
        match m.inner.entries.lookup id with
        | some e =>
          m.inner.entries.insert id (addUsage env input output creation read credits now e)
        | none => m.inner.entries := rfl
    cases held : m.inner.entries.lookup id with
    | none =>
      rw [held] at entries
      refine ⟨?_, ?_, upToDate.filed, fun clear => by cases clear⟩
      · rw [entries]
        exact upToDate.keyed
      · rw [entries]
        exact upToDate.exact
    | some e =>
      rw [held] at entries
      refine ⟨?_, ?_, upToDate.filed, fun clear => by cases clear⟩
      · rw [entries]
        exact upToDate.keyed.insert (upToDate.keyed id e held)
      · rw [entries]
        refine upToDate.exact.insert ?_
        unfold addUsage
        dsimp only
        split_ifs with counts
        · exact careful e held counts
        · exact upToDate.exact id e held
  | flush written =>
    show UpToDate env (flushToDisk written m)
    unfold flushToDisk
    split_ifs with set
    · exact UpToDate.save upToDate.keyed upToDate.exact upToDate.filed (careful set)
    · exact upToDate
  | restart written =>
    have loaded : _ ∧ Saved env (load env m.file written) := load_spec upToDate.filed written
    obtain ⟨entries, saved⟩ := loaded
    refine ⟨?_, ?_, exactFile_load upToDate.filed written, fun _ => saved⟩
    · show Keyed (load env m.file written).inner.entries
      rw [entries]
      exact keyed_readBack
    · intro id e held
      rw [show (run env m (.restart written)).inner.entries = _ from entries] at held
      exact exact_readBack upToDate.filed held

def givenId (p : ClientKeyManager × Op) : Option Nat :=
  match p.2 with
  | .create .. => some p.1.inner.nextId
  | _ => none

def givenIds (trace : List (ClientKeyManager × Op)) : List Nat := trace.filterMap givenId

theorem nextId_updateEntry {f : ClientKey → ClientKey} {written : Bool} :
    (updateEntry f id written m).1.inner.nextId = m.inner.nextId := by
  unfold updateEntry
  split <;> rfl

theorem nextId_verify {order : VisitOrder} {presented now : String} {written : Bool} :
    (verifyAndTouch env order presented now written m).1.inner.nextId = m.inner.nextId := by
  unfold verifyAndTouch
  split_ifs
  · rfl
  · dsimp only
    split
    · rfl
    · split <;> rfl

structure IdsBelow (first : Option (List ClientKey)) (trace : List (ClientKeyManager × Op))
    (m : ClientKeyManager) : Prop where
  positive : 0 < m.inner.nextId
  given_below : ∀ id ∈ givenIds trace, id < m.inner.nextId
  first_below : ∀ ck ∈ first.getD [], ck.id < m.inner.nextId
  distinct : (givenIds trace).Nodup
  apart : ∀ id ∈ givenIds trace, ∀ ck ∈ first.getD [], ck.id ≠ id

theorem IdsBelow.grow {first : Option (List ClientKey)} {trace : List (ClientKeyManager × Op)}
    (below : IdsBelow first trace m) {op : Op} {m' : ClientKeyManager}
    (none : givenId (m, op) = none) (le : m.inner.nextId ≤ m'.inner.nextId) :
    IdsBelow first ((m, op) :: trace) m' := by
  have same : givenIds ((m, op) :: trace) = givenIds trace := List.filterMap_cons_none none
  refine ⟨below.positive.trans_le le, ?_, fun ck mem => (below.first_below ck mem).trans_le le, ?_,
    ?_⟩
  · rw [same]
    exact fun id mem => (below.given_below id mem).trans_le le
  · rw [same]
    exact below.distinct
  · rw [same]
    exact below.apart

theorem idsBelow_step {first : Option (List ClientKey)} {trace : List (ClientKeyManager × Op)}
    (below : IdsBelow first trace m) {op : Op} (careful : Careful env m op) :
    IdsBelow first ((m, op) :: trace) (run env m op) := by
  cases op with
  | create token name description now written =>
    have given : givenIds ((m, Op.create token name description now written) :: trace) =
        m.inner.nextId :: givenIds trace := List.filterMap_cons_some rfl
    have next : (run env m (.create token name description now written)).inner.nextId =
        m.inner.nextId + 1 := Nat.mod_eq_of_lt careful.2
    constructor
    · rw [next]
      exact Nat.succ_pos _
    · rw [given, next]
      intro id mem
      rcases List.mem_cons.mp mem with rfl | mem
      · exact Nat.lt_succ_self _
      · exact (below.given_below id mem).trans (Nat.lt_succ_self _)
    · rw [next]
      exact fun ck mem => (below.first_below ck mem).trans (Nat.lt_succ_self _)
    · rw [given]
      refine List.nodup_cons.mpr ⟨fun again => ?_, below.distinct⟩
      exact lt_irrefl _ (below.given_below _ again)
    · rw [given]
      intro id mem ck in_first
      rcases List.mem_cons.mp mem with rfl | mem
      · exact ne_of_lt (below.first_below ck in_first)
      · exact below.apart id mem ck in_first
  | delete id written =>
    refine below.grow rfl (le_of_eq ?_)
    show _ = (delete id written m).1.inner.nextId
    unfold delete
    split <;> rfl
  | setDisabled id disabled written => exact below.grow rfl (le_of_eq nextId_updateEntry.symm)
  | updateMeta id name description written =>
    exact below.grow rfl (le_of_eq nextId_updateEntry.symm)
  | resetStats id written => exact below.grow rfl (le_of_eq nextId_updateEntry.symm)
  | verifyAndTouch order presented now written =>
    exact below.grow rfl (le_of_eq nextId_verify.symm)
  | recordUsage id input output creation read credits now => exact below.grow rfl (le_refl _)
  | flush written =>
    refine below.grow rfl (le_of_eq ?_)
    show _ = (flushToDisk written m).inner.nextId
    unfold flushToDisk
    split_ifs <;> rfl
  | restart written =>
    obtain ⟨small, last⟩ := careful
    have next : 0 < (load env m.file written).inner.nextId ∧ _ := nextId_above small written
    obtain ⟨positive, above⟩ := next
    refine below.grow rfl ?_
    rcases last with first | ⟨ck, mem, covers⟩
    · exact first.trans positive
    · exact covers.trans (above ck mem)

/-- The file holds what the manager does while the flag is clear, a flush that succeeds and a load
give every entry back, and no id is given out twice or to a second key. -/
structure Persistent (env : Env) (first : Option (List ClientKey))
    (trace : List (ClientKeyManager × Op)) (m : ClientKeyManager) : Prop where
  saved : m.inner.dirtyUsage = false → AllRestored m.inner.entries (readBack env m.file)
  restored : ∀ written,
    AllRestored m.inner.entries (load env (flushToDisk true m).file written).inner.entries
  distinct : (givenIds trace).Nodup
  apart : ∀ id ∈ givenIds trace, ∀ ck ∈ first.getD [], ck.id ≠ id

theorem UpToDate.restored (upToDate : UpToDate env m) (written : Bool) :
    AllRestored m.inner.entries (load env (flushToDisk true m).file written).inner.entries := by
  refine Saved.allRestored fun id => ?_
  have filed : ExactFile env (flushToDisk true m).file := by
    unfold flushToDisk
    split_ifs
    · exact exactFile_save upToDate.exact upToDate.filed
    · exact upToDate.filed
  rw [(load_spec filed written).1]
  unfold flushToDisk
  split_ifs with set
  · exact saved_save upToDate.keyed upToDate.exact id
  · exact upToDate.saved (Bool.eq_false_iff.mpr set) id

/-- Digests that only copy their text, and the sums of three credits that are whole quarters. -/
def plainEnv : Env where
  hmac := fun text => text
  sha256 := fun text => text
  addF64 := fun sum credits =>
    if sum = 0x3FE0000000000000 ∧ credits = 0x3FD0000000000000 then 0x3FE8000000000000
    else if sum = 0 then credits
    else sum
  rereadF64 := fun bits => bits

end KiroRs.Admin.KeyPersistence
