/- Path: KiroRs/Cache/Lifetimes
   source: src/anthropic/cache_metering.rs
   digest: How long the entries of the prompt cache live, over runs of the meter with its file. -/

import KiroRs.Cache.Meter
import KiroRs.Lib.Traces
import Mathlib.Data.Finset.Card

set_option autoImplicit false
set_option relaxedAutoImplicit false

namespace KiroRs.Cache.Lifetimes

open KiroRs.Lib.Traces
open KiroRs.Cache.Segments
open KiroRs.Cache.Meter

/-- The order in which the entries are gone through, which the hash map does not fix. -/
structure VisitOrder (H : Type) where
  visit : List (H × CacheEntry) → List (H × CacheEntry)
  visit_perm : ∀ l, (visit l).Perm l

/-- The meter with what its file holds: `none` where no file can be read. -/
structure PersistedMeter (H : Type) where
  meter : CacheMeter H := {}
  file : Option (Entries H) := none

/-- What becomes of the file: it is written, it stays, or it is left unreadable. -/
inductive Written where
  | whole
  | untouched
  | broken
  deriving DecidableEq

/-- The calls of the meter, with what the outside decides. -/
inductive Call (H : Type) where
  | record (order : VisitOrder H) (now : Nat) (segmentHashes : List H) (segmentTokens : List Nat)
      (ttlSecs : Int)
  | lookup (now : Nat) (segmentHashes : List H)
  | evictExpired (now : Nat)
  | flush (written : Written)
  | reload (now : Nat)

variable {H : Type} [DecidableEq H]

def commitOfCall (segmentHashes : List H) (segmentTokens : List Nat) (ttlSecs : Int) :
    CacheCommit H :=
  ⟨segmentHashes, segmentTokens, ttlSecs.toNat⟩

def flushToDisk (written : Written) (s : PersistedMeter H) : PersistedMeter H :=
  if s.meter.dirty then
    { meter := { s.meter with dirty := false }
      file := match written with
        | .whole => some s.meter.entries
        | .untouched => s.file
        | .broken => none }
  else s

def reload (now : Nat) (s : PersistedMeter H) : PersistedMeter H :=
  { s with
    meter :=
      { entries := match s.file with
          | some entries => entries.filter fun p => p.2.expiresAt > now
          | none => ⟨[], List.nodup_nil⟩ } }

def run (s : PersistedMeter H) : Call H → PersistedMeter H
  | .record order now segmentHashes segmentTokens ttlSecs =>
    { s with
      meter := record order.visit now (commitOfCall segmentHashes segmentTokens ttlSecs) s.meter }
  | .lookup now segmentHashes =>
    { s with
      meter := { s.meter with entries := (lookup now s.meter.entries segmentHashes).2 } }
  | .evictExpired now => { s with meter := evictExpired now s.meter }
  | .flush written => flushToDisk written s
  | .reload now => reload now s

/-- Runs of the meter. -/
abbrev Reaches (start : PersistedMeter H) (trace : List (PersistedMeter H × Call H))
    (s : PersistedMeter H) : Prop :=
  Run (fun s call => some (run s call)) start trace s

theorem filter_not_taken {list : List (H × CacheEntry)} (nodup : (list.map (·.1)).Nodup)
    (k : Nat) :
    list.filter (fun p => !((list.take k).map (·.1)).contains p.1) = list.drop k := by
  have parts : list.take k ++ list.drop k = list := List.take_append_drop k list
  have first : (list.take k).filter (fun p => !((list.take k).map (·.1)).contains p.1) = [] := by
    rw [List.filter_eq_nil_iff]
    intro p mem
    have there : p.1 ∈ (list.take k).map (·.1) := List.mem_map_of_mem mem
    simp only [List.contains_eq_mem, there, decide_true, Bool.not_true, Bool.false_eq_true,
      not_false_eq_true]
  have second : (list.drop k).filter (fun p => !((list.take k).map (·.1)).contains p.1) =
      list.drop k := by
    rw [List.filter_eq_self]
    intro p mem
    rw [← parts, List.map_append] at nodup
    have absent : p.1 ∉ (list.take k).map (·.1) := fun there =>
      (List.nodup_append.mp nodup).2.2 p.1 there p.1 (List.mem_map_of_mem mem) rfl
    simp only [List.contains_eq_mem, absent, decide_false, Bool.not_false]
  calc list.filter (fun p => !((list.take k).map (·.1)).contains p.1)
      = (list.take k ++ list.drop k).filter
          (fun p => !((list.take k).map (·.1)).contains p.1) := by rw [parts]
    _ = list.drop k := by rw [List.filter_append, first, second, List.nil_append]

theorem evictOldest_perm (order : VisitOrder H) (entries : Entries H) :
    ∃ sorted : List (H × CacheEntry), sorted.Perm entries.list ∧
      sorted.Pairwise (·.2.lastHitAt ≤ ·.2.lastHitAt) ∧
      (evictOldest order.visit entries).list.Perm
        (sorted.drop (entries.list.length - capacity)) := by
  let sorted := (order.visit entries.list).insertionSort (·.2.lastHitAt ≤ ·.2.lastHitAt)
  have perm : sorted.Perm entries.list :=
    (List.perm_insertionSort _ _).trans (order.visit_perm entries.list)
  have byHits : sorted.Pairwise (·.2.lastHitAt ≤ ·.2.lastHitAt) := by
    have total : Std.Total fun p q : H × CacheEntry => p.2.lastHitAt ≤ q.2.lastHitAt :=
      ⟨fun p q => le_total p.2.lastHitAt q.2.lastHitAt⟩
    have trans : IsTrans (H × CacheEntry) fun p q => p.2.lastHitAt ≤ q.2.lastHitAt :=
      ⟨fun p q r => le_trans⟩
    exact List.pairwise_insertionSort _ _
  refine ⟨sorted, perm, byHits, ?_⟩
  unfold evictOldest
  split_ifs with above
  · have nodup : (sorted.map (·.1)).Nodup := (perm.map _).nodup_iff.mpr entries.nodup
    rw [← filter_not_taken nodup]
    exact (perm.filter _).symm
  · rw [Nat.sub_eq_zero_of_le (Nat.le_of_not_lt above), List.drop_zero]
    exact perm.symm

theorem mem_iff_get {entries : Entries H} {h : H} {e : CacheEntry} :
    (h, e) ∈ entries.list ↔ entries.get h = some e := by
  obtain ⟨list, nodup⟩ := entries
  show (h, e) ∈ list ↔ list.lookup h = some e
  induction list with
  | nil => simp
  | cons p rest ih =>
    obtain ⟨k, v⟩ := p
    obtain ⟨absent, nodup⟩ := List.nodup_cons.mp nodup
    rw [List.mem_cons, List.lookup_cons, ih nodup]
    by_cases here : h = k
    · subst here
      have gone : rest.lookup h = none := by
        rw [List.lookup_eq_none_iff]
        intro q mem
        rw [bne_iff_ne]
        intro same
        exact absent (List.mem_map.mpr ⟨q, mem, same.symm⟩)
      rw [gone, beq_self_eq_true]
      simp [eq_comm]
    · rw [beq_eq_false_iff_ne.mpr here]
      simp [here]

theorem get_of_filter {entries : Entries H} {p : H × CacheEntry → Bool} {h : H} {e : CacheEntry}
    (stays : (entries.filter p).get h = some e) : entries.get h = some e :=
  mem_iff_get.mp (List.mem_of_mem_filter (mem_iff_get.mpr stays))

theorem get_evictOldest {iterate : List (H × CacheEntry) → List (H × CacheEntry)}
    {entries : Entries H} {h : H} {e : CacheEntry}
    (stays : (evictOldest iterate entries).get h = some e) : entries.get h = some e := by
  unfold evictOldest at stays
  split_ifs at stays
  · exact get_of_filter stays
  · exact stays

def deadlineOf (now : Nat) (ttlSecs : Int) : Nat := now + max 60 (min ttlSecs.toNat maxTtlSecs)

def written (segmentHashes : List H) (segmentTokens : List Nat) : List H :=
  (segmentHashes.zip segmentTokens).map (·.1)

variable {order : VisitOrder H} {now : Nat} {segmentHashes : List H} {segmentTokens : List Nat}
  {ttlSecs : Int} {m : CacheMeter H} {h : H}

theorem deadline_record
    (stays : ((record order.visit now (commitOfCall segmentHashes segmentTokens ttlSecs)
      m).entries.get h).isSome) :
    (record order.visit now (commitOfCall segmentHashes segmentTokens ttlSecs) m).deadline h =
      if h ∈ written segmentHashes segmentTokens then some (deadlineOf now ttlSecs)
      else m.deadline h := by
  obtain ⟨e, held⟩ := Option.isSome_iff_exists.mp stays
  have before := get_evictOldest held
  have recorded := get_recorded now (commitOfCall segmentHashes segmentTokens ttlSecs) m.entries h
  unfold CacheMeter.deadline
  rw [held, ← before]
  exact recorded

theorem lives_iff {t : Nat} : m.lives t h = true ↔ ∃ d, m.deadline h = some d ∧ t < d := by
  unfold CacheMeter.lives
  cases m.deadline h <;> simp

theorem record_keeps_iff
    (stays : ((record order.visit now (commitOfCall segmentHashes segmentTokens ttlSecs)
      m).entries.get h).isSome) :
    (∀ t, m.lives t h = true → (record order.visit now
        (commitOfCall segmentHashes segmentTokens ttlSecs) m).lives t h = true) ↔
      (h ∈ written segmentHashes segmentTokens →
        ∀ d, m.deadline h = some d → d ≤ deadlineOf now ttlSecs) := by
  have after := deadline_record stays
  constructor
  · intro keeps mem d held
    rw [if_pos mem] at after
    by_contra later
    obtain ⟨d', is, above⟩ := lives_iff.mp
      (keeps (deadlineOf now ttlSecs) (lives_iff.mpr ⟨d, held, by omega⟩))
    rw [after] at is
    cases is
    exact lt_irrefl _ above
  · intro later t lives
    obtain ⟨d, held, below⟩ := lives_iff.mp lives
    refine lives_iff.mpr ?_
    rw [after]
    by_cases mem : h ∈ written segmentHashes segmentTokens
    · rw [if_pos mem]
      exact ⟨_, rfl, lt_of_lt_of_le below (later mem d held)⟩
    · rw [if_neg mem]
      exact ⟨d, held, below⟩

def hashes (m : CacheMeter H) : Finset H := (m.entries.list.map (·.1)).toFinset

def heldWith (segmentHashes : List H) (segmentTokens : List Nat) (m : CacheMeter H) : Finset H :=
  hashes m ∪ (written segmentHashes segmentTokens).toFinset

def lastHit (now : Nat) (segmentHashes : List H) (segmentTokens : List Nat) (m : CacheMeter H)
    (h : H) : Nat :=
  if h ∈ written segmentHashes segmentTokens then now
  else ((m.entries.get h).map (·.lastHitAt)).getD 0

/-- A record leaves no more entries than there is room for. What it evicts are as many hashes as
there are too many, and none that was hit later than one that stays; to every other it leaves all
of its lifetime. -/
structure Recorded (now : Nat) (segmentHashes : List H) (segmentTokens : List Nat)
    (m after : CacheMeter H) : Prop where
  bounded : after.entries.list.length ≤ capacity
  among : hashes after ⊆ heldWith segmentHashes segmentTokens m
  surplus : (heldWith segmentHashes segmentTokens m \ hashes after).card =
    (heldWith segmentHashes segmentTokens m).card - capacity
  oldest : ∀ gone ∈ heldWith segmentHashes segmentTokens m \ hashes after,
    ∀ stays ∈ hashes after, lastHit now segmentHashes segmentTokens m gone ≤
      lastHit now segmentHashes segmentTokens m stays
  lives : ∀ h t, m.lives t h = true →
    h ∉ heldWith segmentHashes segmentTokens m \ hashes after → after.lives t h = true

theorem mem_hashes : h ∈ hashes m ↔ ∃ e, m.entries.get h = some e := by
  unfold hashes
  rw [List.mem_toFinset, List.mem_map]
  constructor
  · rintro ⟨⟨h', e⟩, mem, rfl⟩
    exact ⟨e, mem_iff_get.mp mem⟩
  · rintro ⟨e, held⟩
    exact ⟨(h, e), mem_iff_get.mpr held, rfl⟩

theorem card_hashes (m : CacheMeter H) : (hashes m).card = m.entries.list.length := by
  unfold hashes
  rw [List.toFinset_card_of_nodup m.entries.nodup, List.length_map]

def withSegments (now : Nat) (segmentHashes : List H) (segmentTokens : List Nat) (ttlSecs : Int)
    (m : CacheMeter H) : CacheMeter H :=
  { m with entries := recorded now (commitOfCall segmentHashes segmentTokens ttlSecs) m.entries }

theorem hashes_withSegments :
    hashes (withSegments now segmentHashes segmentTokens ttlSecs m) =
      heldWith segmentHashes segmentTokens m := by
  ext h
  have here := congrArg Option.isSome (get_recorded now
    (commitOfCall segmentHashes segmentTokens ttlSecs) m.entries h)
  rw [Option.isSome_map] at here
  unfold heldWith withSegments
  rw [Finset.mem_union, List.mem_toFinset, mem_hashes, mem_hashes, ← Option.isSome_iff_exists,
    here, ← Option.isSome_iff_exists]
  split_ifs with mem
  · exact iff_of_true rfl (.inr mem)
  · rw [Option.isSome_map]
    exact (or_iff_left mem).symm

theorem lastHit_of_mem {e : CacheEntry}
    (mem : (h, e) ∈ (withSegments now segmentHashes segmentTokens ttlSecs m).entries.list) :
    lastHit now segmentHashes segmentTokens m h = e.lastHitAt := by
  have hit := @map_get_recorded H _ Nat (·.lastHitAt) now now
    (commitOfCall segmentHashes segmentTokens ttlSecs) (fun _ => rfl) m.entries h
  rw [show (recorded now (commitOfCall segmentHashes segmentTokens ttlSecs) m.entries).get h =
    some e from mem_iff_get.mp mem] at hit
  unfold lastHit written
  by_cases there : h ∈ (segmentHashes.zip segmentTokens).map (·.1)
  · rw [if_pos there]
    exact (Option.some.inj (hit.trans (if_pos there))).symm
  · rw [if_neg there, ← hit.trans (if_neg there)]
    rfl

theorem recorded_of_careful
    (careful : ∀ h ∈ written segmentHashes segmentTokens, ∀ d, m.deadline h = some d →
      d ≤ deadlineOf now ttlSecs) :
    Recorded now segmentHashes segmentTokens m
      (record order.visit now (commitOfCall segmentHashes segmentTokens ttlSecs) m) := by
  let full := withSegments now segmentHashes segmentTokens ttlSecs m
  let after := record order.visit now (commitOfCall segmentHashes segmentTokens ttlSecs) m
  have all : hashes full = heldWith segmentHashes segmentTokens m := hashes_withSegments
  obtain ⟨sorted, perm, byHits, left⟩ := evictOldest_perm order full.entries
  change after.entries.list.Perm _ at left
  rw [← List.take_append_drop (full.entries.list.length - capacity) sorted] at perm byHits
  have stays (h : H) : h ∈ hashes after ↔
      ∃ e, (h, e) ∈ sorted.drop (full.entries.list.length - capacity) := by
    rw [mem_hashes]
    exact exists_congr fun e => mem_iff_get.symm.trans left.mem_iff
  have there {h : H} {e : CacheEntry}
      (mem : (h, e) ∈ sorted.drop (full.entries.list.length - capacity)) :
      (h, e) ∈ full.entries.list := perm.mem_iff.mp (List.mem_append_right _ mem)
  have among : hashes after ⊆ hashes full := by
    intro h mem
    obtain ⟨e, mem⟩ := (stays h).mp mem
    exact mem_hashes.mpr ⟨e, mem_iff_get.mp (there mem)⟩
  have count : (hashes after).card = full.entries.list.length -
      (full.entries.list.length - capacity) := by
    rw [card_hashes, left.length_eq, List.length_drop]
    have same := perm.length_eq
    rw [List.take_append_drop] at same
    rw [same]
  refine ⟨?_, ?_, ?_, ?_, ?_⟩
  · rw [← card_hashes]
    show (hashes after).card ≤ capacity
    omega
  · exact all ▸ among
  · show (_ \ hashes after).card = _
    rw [← all, Finset.card_sdiff_of_subset among, count, card_hashes]
    omega
  · intro gone mem kept staying
    rw [← all] at mem
    obtain ⟨held, not_kept⟩ := Finset.mem_sdiff.mp mem
    obtain ⟨e, is⟩ := mem_hashes.mp held
    have mem := mem_iff_get.mpr is
    obtain ⟨e', staying⟩ := (stays kept).mp staying
    rw [lastHit_of_mem mem, lastHit_of_mem (there staying)]
    rcases List.mem_append.mp (perm.mem_iff.mpr mem) with first | second
    · exact (List.pairwise_append.mp byHits).2.2 _ first _ staying
    · exact absurd ((stays gone).mpr ⟨e, second⟩) not_kept
  · intro h t lives kept
    have held : h ∈ hashes full := by
      obtain ⟨d, is, -⟩ := lives_iff.mp lives
      obtain ⟨e, is, -⟩ := Option.map_eq_some_iff.mp is
      rw [all]
      exact Finset.mem_union_left _ (mem_hashes.mpr ⟨e, is⟩)
    rw [← all] at kept
    have staying : h ∈ hashes after := by
      by_contra gone
      exact kept (Finset.mem_sdiff.mpr ⟨held, gone⟩)
    exact (record_keeps_iff (Option.isSome_iff_exists.mpr (mem_hashes.mp staying))).mpr
      (careful h) t lives

/-- A record overwrites no deadline that is later than its own. -/
def NoLater (s : PersistedMeter H) : Call H → Prop
  | .record _ now segmentHashes segmentTokens ttlSecs =>
    ∀ h ∈ written segmentHashes segmentTokens, ∀ d, s.meter.deadline h = some d →
      d ≤ deadlineOf now ttlSecs
  | _ => True

/-- A record stored the hash with this deadline, or the file did that the run began with. -/
def Stored (start : PersistedMeter H) (trace : List (PersistedMeter H × Call H)) (h : H)
    (d : Nat) : Prop :=
  (∃ s order now segmentHashes segmentTokens ttlSecs,
    (s, Call.record order now segmentHashes segmentTokens ttlSecs) ∈ trace ∧
      h ∈ written segmentHashes segmentTokens ∧ d = deadlineOf now ttlSecs) ∨
  start.meter.deadline h = some d ∨
  ∃ entries, start.file = some entries ∧ (entries.get h).map (·.expiresAt) = some d

/-- What is asked of a step: a record does what it should; a lookup reports a hit only of an entry
that lives, stored by an earlier record. -/
def Sound (start : PersistedMeter H) (before : List (PersistedMeter H × Call H))
    (s : PersistedMeter H) : Call H → Prop
  | .record order now segmentHashes segmentTokens ttlSecs =>
    Recorded now segmentHashes segmentTokens s.meter
      (record order.visit now (commitOfCall segmentHashes segmentTokens ttlSecs) s.meter)
  | .lookup now segmentHashes =>
    ∀ (i : Nat) h, segmentHashes[i]? = some h →
      (lookup now s.meter.entries segmentHashes).1[i]? = some true →
        ∃ d, s.meter.deadline h = some d ∧ now < d ∧ Stored start before h d
  | _ => True

def AllStored (start : PersistedMeter H) (trace : List (PersistedMeter H × Call H))
    (s : PersistedMeter H) : Prop :=
  (∀ h d, s.meter.deadline h = some d → Stored start trace h d) ∧
  ∀ entries, s.file = some entries → ∀ h d, (entries.get h).map (·.expiresAt) = some d →
    Stored start trace h d

theorem Stored.later {start : PersistedMeter H} {trace : List (PersistedMeter H × Call H)} {h : H}
    {d : Nat} (stored : Stored start trace h d) (p : PersistedMeter H × Call H) :
    Stored start (p :: trace) h d := by
  rcases stored with ⟨s, order, now, hashes, tokens, ttl, mem, rest⟩ | first
  · exact Or.inl ⟨s, order, now, hashes, tokens, ttl, List.mem_cons_of_mem _ mem, rest⟩
  · exact Or.inr first

theorem allStored_step {start : PersistedMeter H} {trace : List (PersistedMeter H × Call H)}
    {s : PersistedMeter H} (inv : AllStored start trace s) (call : Call H) :
    AllStored start ((s, call) :: trace) (run s call) := by
  obtain ⟨memory, file⟩ := inv
  have kept : ∀ h d, s.meter.deadline h = some d → Stored start ((s, call) :: trace) h d :=
    fun h d held => (memory h d held).later _
  have filed : ∀ entries, s.file = some entries → ∀ h d,
      (entries.get h).map (·.expiresAt) = some d → Stored start ((s, call) :: trace) h d :=
    fun entries is h d held => (file entries is h d held).later _
  cases call with
  | record order now hashes tokens ttl =>
    refine ⟨fun h d held => ?_, filed⟩
    have stays : ((record order.visit now (commitOfCall hashes tokens ttl)
        s.meter).entries.get h).isSome := by
      obtain ⟨e, is, -⟩ := Option.map_eq_some_iff.mp held
      exact Option.isSome_iff_exists.mpr ⟨e, is⟩
    have after := deadline_record stays
    rw [show (record order.visit now (commitOfCall hashes tokens ttl) s.meter).deadline h = _
      from held] at after
    by_cases mem : h ∈ written hashes tokens
    · rw [if_pos mem] at after
      cases after
      exact Or.inl ⟨s, order, now, hashes, tokens, ttl, List.mem_cons_self, mem, rfl⟩
    · rw [if_neg mem] at after
      exact kept h d after.symm
  | lookup now hashes =>
    refine ⟨fun h d held => kept h d ?_, filed⟩
    exact ((lookup_spec now s.meter.entries hashes).2 h).symm.trans held
  | evictExpired now =>
    refine ⟨fun h d held => kept h d ?_, filed⟩
    obtain ⟨e, is, eq⟩ := Option.map_eq_some_iff.mp held
    unfold CacheMeter.deadline
    rw [get_of_filter is]
    exact congrArg some eq
  | flush written =>
    show AllStored start _ (flushToDisk written s)
    unfold flushToDisk
    split_ifs
    · refine ⟨kept, fun entries is h d held => ?_⟩
      cases written with
      | whole =>
        cases is
        exact kept h d held
      | untouched => exact filed entries is h d held
      | broken => cases is
    · exact ⟨kept, filed⟩
  | reload now =>
    refine ⟨fun h d held => ?_, filed⟩
    obtain ⟨e, is, eq⟩ := Option.map_eq_some_iff.mp held
    cases at_file : s.file with
    | none =>
      unfold run reload at is
      rw [at_file] at is
      cases is
    | some entries =>
      unfold run reload at is
      rw [at_file] at is
      refine filed entries at_file h d ?_
      rw [get_of_filter is]
      exact congrArg some eq

theorem allStored_of_run {start s : PersistedMeter H} {trace : List (PersistedMeter H × Call H)}
    (reached : Reaches start trace s) : AllStored start trace s := by
  induction reached with
  | nil =>
    exact ⟨fun h d held => Or.inr (Or.inl held),
      fun entries is h d held => Or.inr (Or.inr ⟨entries, is, held⟩)⟩
  | cons reached taken ih =>
    cases taken
    exact allStored_step ih _

theorem sound_step {start s : PersistedMeter H} {trace : List (PersistedMeter H × Call H)}
    (inv : AllStored start trace s) {call : Call H} (careful : NoLater s call) :
    Sound start trace s call := by
  cases call with
  | record order now hashes tokens ttl => exact recorded_of_careful careful
  | lookup now hashes =>
    intro i h at_i hit
    rw [(lookup_spec now s.meter.entries hashes).1, List.getElem?_map, at_i] at hit
    have lives : s.meter.lives now h = true := Option.some.inj hit
    obtain ⟨d, held, later⟩ := lives_iff.mp lives
    exact ⟨d, held, later, inv.1 h d held⟩
  | evictExpired now => trivial
  | flush written => trivial
  | reload now => trivial

/-- In a run whose records overwrite no later deadline every step is sound. -/
theorem sound_of_noLater {start s : PersistedMeter H}
    {trace : List (PersistedMeter H × Call H)} (reached : Reaches start trace s)
    (careful : Guarded NoLater trace) : ∀ before s' call after,
      trace = after ++ (s', call) :: before → Sound start before s' call := by
  induction reached with
  | nil =>
    intro before s' call after split
    cases after <;> cases split
  | cons reached taken ih =>
    intro before s' call after split
    cases after with
    | nil =>
      cases split
      exact sound_step (allStored_of_run reached) careful.head
    | cons p after =>
      cases split
      exact ih careful.tail before s' call after rfl

def inOrder : VisitOrder Nat := ⟨id, fun l => List.Perm.refl l⟩

theorem sound_longer :
    let stored := run ({} : PersistedMeter Nat) (.record inOrder 0 [7] [1] 300)
    Sound ({} : PersistedMeter Nat)
      [(stored, .record inOrder 10 [7] [1] 3600), ({}, .record inOrder 0 [7] [1] 300)]
      (run stored (.record inOrder 10 [7] [1] 3600)) (.lookup 1000 [7]) := by
  intro stored
  have reached : Reaches ({} : PersistedMeter Nat)
      [(run stored (.record inOrder 10 [7] [1] 3600), .lookup 1000 [7]),
        (stored, .record inOrder 10 [7] [1] 3600), ({}, .record inOrder 0 [7] [1] 300)] _ :=
    .cons (.cons (.cons .nil rfl) rfl) rfl
  refine sound_of_noLater reached ?_ _ _ _ [] rfl
  intro p mem
  simp only [List.mem_cons, List.not_mem_nil, or_false] at mem
  rcases mem with rfl | rfl | rfl
  · trivial
  · intro h only d held
    rw [List.mem_singleton.mp only] at held
    have deadline : stored.meter.deadline 7 = some 300 := by decide +kernel
    rw [deadline] at held
    cases held
    decide
  · intro h _ d held
    cases held

/-- A five-minute commit cuts short a segment that was stored for an hour. -/
theorem hour_cut_short :
    let stored := run ({} : PersistedMeter Nat) (.record inOrder 0 [7] [1] 3600)
    (lookup 1000 stored.meter.entries [7]).1 = [true] ∧
    (lookup 1000 (run stored (.record inOrder 10 [7] [1] 300)).meter.entries [7]).1 = [false] ∧
    ¬Sound {} [({}, .record inOrder 0 [7] [1] 3600)] stored (.record inOrder 10 [7] [1] 300) := by
  refine ⟨by decide +kernel, by decide +kernel, fun sound => ?_⟩
  exact absurd (sound.lives 7 1000 (by decide +kernel) (by decide +kernel)) (by decide +kernel)

end KiroRs.Cache.Lifetimes
