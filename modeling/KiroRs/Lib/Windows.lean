/- Path: KiroRs/Lib/Windows
   layer: library
   digest: Items added up in groups by key, and windows that keep the groups of the largest keys. -/

import Mathlib.Algebra.BigOperators.Group.List.Basic
import Mathlib.Data.Finset.Sort
import Mathlib.Data.List.DropRight
import KiroRs.Lib.Edits

set_option autoImplicit false
set_option relaxedAutoImplicit false

namespace KiroRs.Lib.Windows

open KiroRs.Lib.Edits

section Groups

variable {κ α β : Type} [DecidableEq κ] (init : β) (add : β → α → β)

def tally : List (κ × β) → κ → α → List (κ × β)
  | [], key, item => [(key, add init item)]
  | (k, b) :: rest, key, item =>
    if key = k then (k, add b item) :: rest else (k, b) :: tally rest key item

def tallyAll (keyOf : α → Option κ) (groups : List (κ × β)) (items : List α) : List (κ × β) :=
  items.foldl (fun groups item => (keyOf item).elim groups (tally init add groups · item)) groups

variable {init add} {groups : List (κ × β)} {key other : κ} {item : α}

theorem lookup_group {k : κ} {b : β} :
    ((k, b) :: groups).lookup other = if other = k then some b else groups.lookup other := by
  rw [List.lookup_cons]
  by_cases same : other = k
  · simp [same]
  · rw [if_neg same, beq_eq_false_iff_ne.mpr same]

theorem lookup_tally : (tally init add groups key item).lookup other =
    if other = key then some (add ((groups.lookup key).getD init) item)
    else groups.lookup other := by
  induction groups with
  | nil => simp [tally, lookup_group]
  | cons g rest ih =>
    obtain ⟨k, b⟩ := g
    rw [tally]
    split_ifs with found same same
    · subst found
      simp [same]
    · subst found
      rw [lookup_group, if_neg same, lookup_group, if_neg same]
    · have ne : ¬ other = k := by rw [same]; exact found
      rw [lookup_group, if_neg ne, ih, if_pos same, lookup_group, if_neg found]
    · rw [lookup_group, ih, if_neg same, lookup_group]

theorem tallyAll_concat {keyOf : α → Option κ} (items : List α) :
    tallyAll init add keyOf groups (items ++ [item]) =
      (keyOf item).elim (tallyAll init add keyOf groups items)
        (tally init add (tallyAll init add keyOf groups items) · item) := by
  rw [tallyAll, List.foldl_append]
  rfl

theorem lookup_tallyAll {keyOf : α → Option κ} (items : List α) :
    (tallyAll init add keyOf [] items).lookup other =
      if items.filter (keyOf · = some other) = [] then none
      else some ((items.filter (keyOf · = some other)).foldl add init) := by
  induction items using List.reverseRecOn with
  | nil => rfl
  | append_singleton items item ih =>
    rw [tallyAll_concat, List.filter_append]
    cases keyed : keyOf item with
    | none => simp [keyed, ih]
    | some key =>
      rw [Option.elim_some, lookup_tally]
      by_cases same : other = key
      · subst same
        rw [if_pos rfl, ih, List.filter_cons_of_pos (by simp [keyed])]
        split_ifs with empty rest rest
        · simp at rest
        · simp [empty]
        · simp at rest
        · simp
      · have apart : ¬ some key = some other := fun eq => same (Option.some.inj eq).symm
        rw [if_neg same, ih, List.filter_cons_of_neg (by simpa [keyed] using apart)]
        simp

theorem sum_tally {M : Type} [AddCommMonoid M] {measure : β → M} {weight : α → M}
    (start : measure init = 0)
    (step : ∀ b item, measure (add b item) = measure b + weight item) :
    ((tally init add groups key item).map fun g => measure g.2).sum =
      (groups.map fun g => measure g.2).sum + weight item := by
  induction groups with
  | nil => simp [tally, step, start]
  | cons g rest ih =>
    obtain ⟨k, b⟩ := g
    rw [tally]
    split_ifs with found
    · simp only [List.map_cons, List.sum_cons, step]
      exact add_right_comm _ _ _
    · simp only [List.map_cons, List.sum_cons, ih]
      exact (add_assoc _ _ _).symm

theorem sum_tallyAll {M : Type} [AddCommMonoid M] {measure : β → M} {weight : α → M}
    (start : measure init = 0)
    (step : ∀ b item, measure (add b item) = measure b + weight item)
    {keyOf : α → Option κ} (items : List α) :
    ((tallyAll init add keyOf [] items).map fun g => measure g.2).sum =
      ((items.filter fun item => (keyOf item).isSome).map weight).sum := by
  induction items using List.reverseRecOn with
  | nil => rfl
  | append_singleton items item ih =>
    rw [tallyAll_concat, List.filter_append]
    cases keyed : keyOf item with
    | none => simp [keyed, ih]
    | some key => simp [keyed, sum_tally start step, ih]

theorem measure_foldl {M : Type} [AddCommMonoid M] {measure : β → M} {weight : α → M}
    (step : ∀ b item, measure (add b item) = measure b + weight item) (b : β) (items : List α) :
    measure (items.foldl add b) = measure b + (items.map weight).sum := by
  induction items generalizing b with
  | nil => simp
  | cons item items ih =>
    rw [List.foldl_cons, ih, step, List.map_cons, List.sum_cons, add_assoc]

end Groups

section Windows

variable {κ α β : Type} [LinearOrder κ] (key : β → κ) (fresh : κ → β) (add : β → α → β)

/-- An item goes to the bucket of its key. A new bucket is sorted in, and the buckets of the
smallest keys go where there are more than the bound. -/
def upsert (bound : Nat) (window : List β) (k : κ) (item : α) : List β :=
  match modifyFirst (fun b => key b = k) (add · item) window with
  | some window => window
  | none =>
    let window := (window ++ [add (fresh k) item]).mergeSort fun a b => key a ≤ key b
    window.drop (window.length - bound)

/-- What a window is after some items: the buckets of the largest keys, each with all of its
items. A key is forgotten only for a full window of larger ones. -/
structure Keeps (keyOf : α → κ) (bound : Nat) (items : List α) (window : List β) : Prop where
  sorted : (window.map key).Pairwise (· < ·)
  summed : ∀ b ∈ window, b = (items.filter (keyOf · = key b)).foldl add (fresh (key b))
  seen : ∀ b ∈ window, ∃ item ∈ items, keyOf item = key b
  fits : window.length ≤ bound
  forgotten : ∀ item ∈ items, keyOf item ∉ window.map key →
    window.length = bound ∧ ∀ b ∈ window, keyOf item < key b

variable {key fresh add} {keyOf : α → κ} {bound : Nat} {items : List α} {window : List β}

theorem keeps_nil : Keeps key fresh add keyOf bound [] [] :=
  ⟨List.Pairwise.nil, by simp, by simp, Nat.zero_le _, by simp⟩

theorem Keeps.summed_concat (keeps : Keeps key fresh add keyOf bound items window) {b : β}
    (mem : b ∈ window) {item : α} (apart : ¬ keyOf item = key b) :
    b = ((items ++ [item]).filter (keyOf · = key b)).foldl add (fresh (key b)) := by
  rw [List.filter_append, List.filter_cons_of_neg (by simpa using apart), List.filter_nil,
    List.append_nil]
  exact keeps.summed b mem

theorem summed_unseen {item : α} (unseen : ∀ other ∈ items, keyOf other ≠ keyOf item) :
    add (fresh (keyOf item)) item =
      ((items ++ [item]).filter (keyOf · = keyOf item)).foldl add (fresh (keyOf item)) := by
  have none_before : items.filter (keyOf · = keyOf item) = [] := by
    apply List.filter_eq_nil_iff.mpr
    intro other mem
    simpa using unseen other mem
  rw [List.filter_append, none_before, List.filter_cons_of_pos (by simp), List.filter_nil]
  rfl

section Insert

variable {item : α} {sorted : List β} {first : β} {rest : List β}

omit [LinearOrder κ] in
theorem mem_inserted (perm : sorted.Perm (window ++ [add (fresh (keyOf item)) item])) (b : β) :
    b ∈ sorted ↔ b ∈ window ∨ b = add (fresh (keyOf item)) item := by
  rw [perm.mem_iff, List.mem_append, List.mem_singleton]

omit [LinearOrder κ] in
theorem length_inserted (perm : sorted.Perm (window ++ [add (fresh (keyOf item)) item])) :
    sorted.length = window.length + 1 := by
  rw [perm.length_eq, List.length_append, List.length_singleton]

theorem Keeps.seen_inserted (keyed : ∀ k item, key (add (fresh k) item) = k)
    (keeps : Keeps key fresh add keyOf bound items window)
    (perm : sorted.Perm (window ++ [add (fresh (keyOf item)) item])) (b : β) (mem : b ∈ sorted) :
    ∃ other ∈ items ++ [item], keyOf other = key b := by
  rcases (mem_inserted perm b).mp mem with old | rfl
  · obtain ⟨other, mem, same⟩ := keeps.seen b old
    exact ⟨other, List.mem_append_left _ mem, same⟩
  · exact ⟨item, List.mem_append_right _ List.mem_cons_self, (keyed _ item).symm⟩

theorem Keeps.insert_room (keyed : ∀ k item, key (add (fresh k) item) = k)
    (keeps : Keeps key fresh add keyOf bound items window) (absent : keyOf item ∉ window.map key)
    (perm : sorted.Perm (window ++ [add (fresh (keyOf item)) item]))
    (increasing : (sorted.map key).Pairwise (· < ·)) (room : window.length < bound) :
    Keeps key fresh add keyOf bound (items ++ [item]) sorted := by
  have kept (other : α) (mem : other ∈ items) : keyOf other ∈ window.map key := by
    by_contra gone
    exact absurd (keeps.forgotten other mem gone).1 (Nat.ne_of_lt room)
  refine ⟨increasing, ?_, keeps.seen_inserted keyed perm, (length_inserted perm).trans_le room, ?_⟩
  · intro b mem
    rcases (mem_inserted perm b).mp mem with old | rfl
    · exact keeps.summed_concat old fun eq => absent (eq ▸ List.mem_map_of_mem old)
    · rw [keyed]
      exact summed_unseen fun other mem same => absent (same ▸ kept other mem)
  · intro other mem gone
    refine absurd ?_ gone
    rcases List.mem_append.mp mem with old | new
    · obtain ⟨b, there, same⟩ := List.mem_map.mp (kept other old)
      exact List.mem_map.mpr ⟨b, (mem_inserted perm b).mpr (Or.inl there), same⟩
    · rw [List.mem_singleton.mp new, ← keyed (keyOf item) item]
      exact List.mem_map_of_mem ((mem_inserted perm _).mpr (Or.inr rfl))

theorem lt_of_mem_rest (increasing : ((first :: rest).map key).Pairwise (· < ·)) {b : β}
    (mem : b ∈ rest) : key first < key b :=
  (List.pairwise_cons.mp increasing).1 (key b) (List.mem_map_of_mem mem)

theorem lt_rest (perm : (first :: rest).Perm (window ++ [add (fresh (keyOf item)) item]))
    (increasing : ((first :: rest).map key).Pairwise (· < ·)) {k : κ}
    (below : ∀ b ∈ window, k < key b) : ∀ b ∈ rest, k < key b := by
  intro b mem
  rcases (mem_inserted perm first).mp List.mem_cons_self with old | new
  · exact lt_trans (below first old) (lt_of_mem_rest increasing mem)
  · rcases (mem_inserted perm b).mp (List.mem_cons_of_mem _ mem) with old | rfl
    · exact below b old
    · exact absurd (lt_of_mem_rest increasing mem) (new ▸ lt_irrefl _)

omit [LinearOrder κ] in
theorem absent_of_gone (perm : (first :: rest).Perm (window ++ [add (fresh (keyOf item)) item]))
    {k : κ} (other : ¬ k = key first) (gone : k ∉ rest.map key) : k ∉ window.map key := by
  intro there
  obtain ⟨c, old, same⟩ := List.mem_map.mp there
  rcases List.mem_cons.mp ((mem_inserted perm c).mpr (Or.inl old)) with rfl | later
  · exact other same.symm
  · exact gone (same ▸ List.mem_map_of_mem later)

/-- In a full window one bucket is too many, and the first goes. -/
theorem Keeps.insert_full (keyed : ∀ k item, key (add (fresh k) item) = k)
    (keeps : Keeps key fresh add keyOf bound items window) (absent : keyOf item ∉ window.map key)
    (perm : (first :: rest).Perm (window ++ [add (fresh (keyOf item)) item]))
    (increasing : ((first :: rest).map key).Pairwise (· < ·)) (full : window.length = bound) :
    Keeps key fresh add keyOf bound (items ++ [item]) rest := by
  have length_rest : rest.length = bound := by
    rw [← full]
    exact Nat.succ.inj (length_inserted perm)
  refine ⟨(List.pairwise_cons.mp increasing).2, ?_,
    fun b mem => keeps.seen_inserted keyed perm b (List.mem_cons_of_mem _ mem),
    Nat.le_of_eq length_rest, ?_⟩
  · intro b mem
    rcases (mem_inserted perm b).mp (List.mem_cons_of_mem _ mem) with old | rfl
    · exact keeps.summed_concat old fun eq => absent (eq ▸ List.mem_map_of_mem old)
    · rw [keyed]
      refine summed_unseen fun other there same => ?_
      have gone := (keeps.forgotten other there (same ▸ absent)).2
      have smaller := lt_rest perm increasing gone _ mem
      rw [keyed, same] at smaller
      exact lt_irrefl _ smaller
  · intro other mem gone
    refine ⟨length_rest, ?_⟩
    by_cases dropped : keyOf other = key first
    · rw [dropped]
      exact fun b stays => lt_of_mem_rest increasing stays
    · have before : other ∈ items := by
        rcases List.mem_append.mp mem with old | new
        · exact old
        · rw [List.mem_singleton.mp new] at dropped gone
          rcases List.mem_cons.mp ((mem_inserted perm _).mpr (Or.inr rfl)) with eq | later
          · exact absurd (eq ▸ (keyed _ item).symm) dropped
          · exact absurd (keyed (keyOf item) item ▸ List.mem_map_of_mem later) gone
      exact lt_rest perm increasing
        (keeps.forgotten other before (absent_of_gone perm dropped gone)).2

theorem Keeps.insert (shaped : ∀ b item, key (add b item) = key b)
    (opened : ∀ k, key (fresh k) = k) (keeps : Keeps key fresh add keyOf bound items window)
    (absent : keyOf item ∉ window.map key)
    (perm : sorted.Perm (window ++ [add (fresh (keyOf item)) item]))
    (increasing : (sorted.map key).Pairwise (· < ·)) :
    Keeps key fresh add keyOf bound (items ++ [item]) (sorted.drop (sorted.length - bound)) := by
  have keyed : ∀ k item, key (add (fresh k) item) = k := fun k item => by rw [shaped, opened]
  have length_sorted := length_inserted perm
  rcases Nat.lt_or_ge window.length bound with room | full
  · rw [length_sorted, Nat.sub_eq_zero_of_le room, List.drop_zero]
    exact keeps.insert_room keyed absent perm increasing room
  · have exact_length : window.length = bound := Nat.le_antisymm keeps.fits full
    have one : sorted.length - bound = 1 := by omega
    rw [one]
    cases sorted with
    | nil => cases length_sorted
    | cons first rest => exact keeps.insert_full keyed absent perm increasing exact_length

end Insert

theorem Keeps.modify (shaped : ∀ b item, key (add b item) = key b)
    (keeps : Keeps key fresh add keyOf bound items window) {item : α} {window' : List β}
    (found : modifyFirst (fun b => key b = keyOf item) (add · item) window = some window') :
    Keeps key fresh add keyOf bound (items ++ [item]) window' := by
  have same_keys := map_modifyFirst (fun b => shaped b item) found
  have distinct := keeps.sorted.imp ne_of_lt
  have same_length : window'.length = window.length := by
    rw [← List.length_map key, same_keys, List.length_map]
  have present : keyOf item ∈ window.map key := by
    by_contra absent
    have none_there : ∀ b ∈ window, decide (key b = keyOf item) = false := by
      intro b mem
      apply decide_eq_false
      intro same
      exact absent (same ▸ List.mem_map_of_mem mem)
    rw [modifyFirst_eq_none.mpr none_there] at found
    cases found
  have below_iff (k : κ) : (∀ b ∈ window', k < key b) ↔ ∀ b ∈ window, k < key b := by
    rw [← List.forall_mem_map (P := (k < ·)), same_keys, List.forall_mem_map]
  refine ⟨same_keys ▸ keeps.sorted, ?_, ?_, same_length ▸ keeps.fits, ?_⟩
  · intro b mem
    rcases (mem_modifyFirst distinct found).mp mem with ⟨old, apart⟩ | ⟨old, there, same, rfl⟩
    · rw [List.filter_append, List.filter_cons_of_neg (by simpa using fun eq => apart eq.symm),
        List.filter_nil, List.append_nil]
      exact keeps.summed b old
    · rw [shaped, List.filter_append, List.filter_cons_of_pos (by simpa using same.symm),
        List.filter_nil, List.foldl_append, ← keeps.summed old there]
      rfl
  · intro b mem
    rcases (mem_modifyFirst distinct found).mp mem with ⟨old, _⟩ | ⟨old, _, same, rfl⟩
    · obtain ⟨other, before, eq⟩ := keeps.seen b old
      exact ⟨other, List.mem_append_left _ before, eq⟩
    · exact ⟨item, List.mem_append_right _ List.mem_cons_self, by rw [shaped, same]⟩
  · intro other mem gone
    rw [same_keys] at gone
    rw [same_length, below_iff]
    rcases List.mem_append.mp mem with old | new
    · exact keeps.forgotten other old gone
    · rw [List.mem_singleton.mp new] at gone
      exact absurd present gone

theorem Keeps.upsert (shaped : ∀ b item, key (add b item) = key b)
    (opened : ∀ k, key (fresh k) = k) (keeps : Keeps key fresh add keyOf bound items window)
    (item : α) :
    Keeps key fresh add keyOf bound (items ++ [item])
      (upsert key fresh add bound window (keyOf item) item) := by
  rw [Windows.upsert]
  cases found : modifyFirst (fun b => key b = keyOf item) (add · item) window with
  | some window' => exact keeps.modify shaped found
  | none =>
    have absent : keyOf item ∉ window.map key := by
      intro there
      obtain ⟨b, mem, same⟩ := List.mem_map.mp there
      have other := modifyFirst_eq_none.mp found b mem
      exact absurd same (of_decide_eq_false other)
    have perm := List.mergeSort_perm (window ++ [add (fresh (keyOf item)) item])
      fun a b => key a ≤ key b
    refine keeps.insert shaped opened absent perm ?_
    have distinct : ((window ++ [add (fresh (keyOf item)) item]).map key).Nodup := by
      rw [List.map_append, List.map_singleton, shaped, opened]
      refine List.nodup_append'.mpr ⟨keeps.sorted.imp ne_of_lt, List.nodup_singleton _, ?_⟩
      exact List.disjoint_singleton.mpr absent
    have transitive (a b c : β) (ab : decide (key a ≤ key b) = true)
        (bc : decide (key b ≤ key c) = true) : decide (key a ≤ key c) = true :=
      decide_eq_true (le_trans (of_decide_eq_true ab) (of_decide_eq_true bc))
    have total (a b : β) : (decide (key a ≤ key b) || decide (key b ≤ key a)) = true := by
      rw [Bool.or_eq_true, decide_eq_true_eq, decide_eq_true_eq]
      exact le_total _ _
    have increasing := List.pairwise_mergeSort transitive total
      (window ++ [add (fresh (keyOf item)) item])
    have weak := (List.pairwise_map (f := key) (R := (· ≤ ·))).mpr
      (increasing.imp of_decide_eq_true)
    exact (weak.and ((perm.map key).nodup_iff.mpr distinct)).imp fun ⟨le, ne⟩ => lt_of_le_of_ne le ne

def sortedKeys {κ : Type} [LinearOrder κ] (keys : List κ) : List κ := keys.toFinset.sort

theorem sortedKeys_of_perm {κ : Type} [LinearOrder κ] {keys keys' : List κ}
    (perm : keys.Perm keys') : sortedKeys keys = sortedKeys keys' := by
  unfold sortedKeys
  rw [List.toFinset_eq_of_perm _ _ perm]

/-- The keys kept are the largest of those seen. -/
theorem Keeps.keys_eq (keeps : Keeps key fresh add keyOf bound items window) :
    window.map key = (sortedKeys (items.map keyOf)).rtake bound := by
  unfold sortedKeys
  have mem_all (k : κ) : k ∈ (items.map keyOf).toFinset.sort ↔ k ∈ items.map keyOf := by
    rw [Finset.mem_sort, List.mem_toFinset]
  let gone := (items.map keyOf).toFinset.sort.filter (· ∉ window.map key)
  have mem_gone (k : κ) : k ∈ gone ↔ k ∈ items.map keyOf ∧ k ∉ window.map key := by
    rw [List.mem_filter, mem_all, decide_eq_true_eq]
  have forgotten (k : κ) (mem : k ∈ gone) :
      window.length = bound ∧ ∀ b ∈ window, k < key b := by
    obtain ⟨seen, absent⟩ := (mem_gone k).mp mem
    obtain ⟨item, there, rfl⟩ := List.mem_map.mp seen
    exact keeps.forgotten item there absent
  have split : (items.map keyOf).toFinset.sort = gone ++ window.map key := by
    refine (Finset.sortedLT_sort _).pairwise.eq_of_mem_iff ?_ ?_
    · refine List.pairwise_append.mpr ⟨?_, keeps.sorted, ?_⟩
      · exact (Finset.sortedLT_sort _).pairwise.sublist List.filter_sublist
      · intro k mem k' mem'
        obtain ⟨b, there, rfl⟩ := List.mem_map.mp mem'
        exact (forgotten k mem).2 b there
    · intro k
      rw [List.mem_append, mem_gone, mem_all]
      constructor
      · intro seen
        by_cases kept : k ∈ window.map key
        · exact Or.inr kept
        · exact Or.inl ⟨seen, kept⟩
      · rintro (⟨seen, _⟩ | kept)
        · exact seen
        · obtain ⟨b, there, rfl⟩ := List.mem_map.mp kept
          obtain ⟨item, mem, same⟩ := keeps.seen b there
          exact List.mem_map.mpr ⟨item, mem, same⟩
  rw [split, List.rtake, List.length_append, List.length_map]
  have fits := keeps.fits
  cases lost : gone with
  | nil => rw [List.length_nil, Nat.zero_add, Nat.sub_eq_zero_of_le fits, List.drop_zero,
      List.nil_append]
  | cons k rest =>
    have full := (forgotten k (lost ▸ List.mem_cons_self)).1
    rw [full, Nat.add_sub_cancel, List.drop_left]

end Windows

end KiroRs.Lib.Windows
