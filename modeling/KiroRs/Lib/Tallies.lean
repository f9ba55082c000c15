/- Path: KiroRs/Lib/Tallies
   layer: library
   digest: What groups hold for a key, groups merged from other groups, and how many points of a
   grid fit into a stretch of it. -/

import Mathlib.Algebra.Order.Ring.Int
import Mathlib.Data.Int.Interval
import KiroRs.Lib.Windows

set_option autoImplicit false
set_option relaxedAutoImplicit false

namespace KiroRs.Lib.Tallies

open KiroRs.Lib.Windows

section Amounts

variable {κ α β γ M : Type} [DecidableEq κ] [AddCommMonoid M]

def amount (measure : β → M) (groups : List (κ × β)) (key : κ) : M :=
  ((groups.filter (·.1 = key)).map fun g => measure g.2).sum

variable {measure : β → M} {weight : α → M} {init : β} {add : β → α → β} {keyOf : α → Option κ}
  {groups groups' : List (κ × β)} {key other : κ}

theorem amount_cons (g : κ × β) :
    amount measure (g :: groups) key =
      (if g.1 = key then measure g.2 else 0) + amount measure groups key := by
  rw [amount, amount]
  by_cases same : g.1 = key
  · rw [List.filter_cons_of_pos (by simpa using same), if_pos same, List.map_cons, List.sum_cons]
  · rw [List.filter_cons_of_neg (by simpa using same), if_neg same, zero_add]

theorem amount_append :
    amount measure (groups ++ groups') key =
      amount measure groups key + amount measure groups' key := by
  rw [amount, List.filter_append, List.map_append, List.sum_append, amount, amount]

theorem amount_perm (perm : groups.Perm groups') :
    amount measure groups key = amount measure groups' key :=
  ((perm.filter _).map _).sum_eq

theorem amount_flatMap {δ : Type} (sources : List δ) (from_ : δ → List (κ × β)) :
    amount measure (sources.flatMap from_) key =
      (sources.map fun source => amount measure (from_ source) key).sum := by
  induction sources with
  | nil => rfl
  | cons source sources ih =>
    rw [List.flatMap_cons, amount_append, ih, List.map_cons, List.sum_cons]

theorem amount_of_absent (absent : key ∉ groups.map (·.1)) : amount measure groups key = 0 := by
  have none_there : groups.filter (·.1 = key) = [] := by
    apply List.filter_eq_nil_iff.mpr
    intro g mem
    simpa using fun same : g.1 = key => absent (same ▸ List.mem_map_of_mem mem)
  rw [amount, none_there]
  rfl

theorem amount_of_mem (measure : β → M) {g : κ × β} (distinct : (groups.map (·.1)).Nodup) (mem : g ∈ groups) :
    amount measure groups g.1 = measure g.2 := by
  induction groups with
  | nil => cases mem
  | cons h rest ih =>
    obtain ⟨apart, distinct⟩ := List.nodup_cons.mp distinct
    rw [amount_cons]
    rcases List.mem_cons.mp mem with rfl | later
    · rw [if_pos rfl, amount_of_absent apart, add_zero]
    · have ne : h.1 ≠ g.1 := by
        intro same
        exact apart (List.mem_map.mpr ⟨g, later, same.symm⟩)
      rw [if_neg ne, zero_add, ih distinct later]

theorem amount_tally (measure : β → M) (start : measure init = 0)
    (step : ∀ b item, measure (add b item) = measure b + weight item) (item : α) :
    amount measure (tally init add groups key item) other =
      amount measure groups other + if key = other then weight item else 0 := by
  induction groups with
  | nil =>
    rw [tally, amount_cons, step, start, zero_add]
    exact add_comm _ _
  | cons g rest ih =>
    obtain ⟨k, b⟩ := g
    rw [tally]
    split_ifs with found same same
    · subst found
      rw [amount_cons, amount_cons, if_pos same, if_pos same, step]
      exact add_right_comm _ _ _
    · subst found
      rw [amount_cons, amount_cons, if_neg same, if_neg same, add_zero]
    · rw [amount_cons, amount_cons, ih, if_pos same, add_assoc]
    · rw [amount_cons, amount_cons, ih, if_neg same, add_assoc]

theorem amount_tallyAll (measure : β → M) (start : measure init = 0)
    (step : ∀ b item, measure (add b item) = measure b + weight item) (items : List α) :
    amount measure (tallyAll init add keyOf [] items) key =
      ((items.filter (keyOf · = some key)).map weight).sum := by
  induction items using List.reverseRecOn with
  | nil => rfl
  | append_singleton items item ih =>
    rw [tallyAll_concat, List.filter_append]
    cases keyed : keyOf item with
    | none => simp [keyed, ih]
    | some k =>
      rw [Option.elim_some, amount_tally measure start step, ih, List.map_append, List.sum_append]
      by_cases same : k = key
      · simp [keyed, same]
      · simp [keyed, same]

theorem mem_keys_tally (item : α) :
    other ∈ (tally init add groups key item).map (·.1) ↔
      other ∈ groups.map (·.1) ∨ other = key := by
  induction groups with
  | nil => simp [tally]
  | cons g rest ih =>
    obtain ⟨k, b⟩ := g
    rw [tally]
    split_ifs with found
    · subst found
      simp only [List.map_cons, List.mem_cons]
      tauto
    · simp only [List.map_cons, List.mem_cons, ih]
      tauto

theorem nodup_keys_tally (distinct : (groups.map (·.1)).Nodup) (item : α) :
    ((tally init add groups key item).map (·.1)).Nodup := by
  induction groups with
  | nil => exact List.nodup_singleton _
  | cons g rest ih =>
    obtain ⟨k, b⟩ := g
    obtain ⟨apart, rest_distinct⟩ := List.nodup_cons.mp distinct
    rw [tally]
    split_ifs with found
    · exact distinct
    · refine List.nodup_cons.mpr ⟨?_, ih rest_distinct⟩
      rw [mem_keys_tally]
      rintro (there | same)
      · exact apart there
      · exact found same.symm

theorem keys_tallyAll (items : List α) :
    ((tallyAll init add keyOf [] items).map (·.1)).Nodup ∧
      ∀ k, k ∈ (tallyAll init add keyOf [] items).map (·.1) ↔ k ∈ items.filterMap keyOf := by
  induction items using List.reverseRecOn with
  | nil => exact ⟨List.nodup_nil, fun _ => Iff.rfl⟩
  | append_singleton items item ih =>
    rw [tallyAll_concat, List.filterMap_append]
    cases keyed : keyOf item with
    | none => simpa [keyed] using ih
    | some key =>
      refine ⟨nodup_keys_tally ih.1 item, ?_⟩
      intro k
      rw [Option.elim_some, mem_keys_tally, ih.2]
      simp [keyed]

/-- Groups with the same key become one. -/
def merge (init : β) (combine : β → γ → β) (groups : List (κ × γ)) : List (κ × β) :=
  tallyAll init (fun b g => combine b g.2) (fun g => some g.1) [] groups

variable {combine : β → γ → β} {worth : γ → M} {parts : List (κ × γ)}

theorem amount_merge (measure : β → M) (start : measure init = 0)
    (step : ∀ b c, measure (combine b c) = measure b + worth c) :
    amount measure (merge init combine parts) key = amount worth parts key := by
  have items : amount measure (merge init combine parts) key =
      ((parts.filter (some ·.1 = some key)).map fun g => worth g.2).sum :=
    amount_tallyAll measure start (fun b g => step b g.2) parts
  simp only [Option.some.injEq] at items
  exact items

theorem keys_merge (init : β) (combine : β → γ → β) (parts : List (κ × γ)) :
    ((merge init combine parts).map (·.1)).Nodup ∧
      ∀ k, k ∈ (merge init combine parts).map (·.1) ↔ k ∈ parts.map (·.1) := by
  have keys : _ ∧ ∀ k, k ∈ (merge init combine parts).map (·.1) ↔
      k ∈ parts.filterMap fun g => some g.1 := keys_tallyAll parts
  rwa [List.filterMap_eq_map'] at keys

/-- Items sorted by the keys they have are all items with one of the keys. -/
theorem sum_over_keys {key : α → κ} {keys : List κ} (distinct : keys.Nodup) (items : List α) :
    (keys.map fun k => ((items.filter (key · = k)).map weight).sum).sum =
      ((items.filter (key · ∈ keys)).map weight).sum := by
  induction items with
  | nil => simp
  | cons item items ih =>
    have each (k : κ) : (((item :: items).filter (key · = k)).map weight).sum =
        (if key item = k then weight item else 0) +
          ((items.filter (key · = k)).map weight).sum := by
      by_cases same : key item = k
      · simp [same]
      · simp [same]
    have own : (keys.map fun k => if key item = k then weight item else 0).sum =
        if key item ∈ keys then weight item else 0 := by
      clear ih each
      induction keys with
      | nil => simp
      | cons k keys ih =>
        obtain ⟨apart, distinct⟩ := List.nodup_cons.mp distinct
        rw [List.map_cons, List.sum_cons, ih distinct]
        by_cases same : key item = k
        · subst same
          simp [apart]
        · simp [same]
    simp only [each, List.sum_map_add, ih, own]
    by_cases mem : key item ∈ keys
    · simp [mem]
    · simp [mem]

end Amounts

theorem mem_rtake_sortedKeys {κ : Type} [LinearOrder κ] {keys : List κ} {k : κ} {bound : Nat}
    (mem : k ∈ keys) (few : ((sortedKeys keys).filter (k ≤ ·)).length ≤ bound) :
    k ∈ (sortedKeys keys).rtake bound := by
  have sorted : (sortedKeys keys).Pairwise (· < ·) := (Finset.sortedLT_sort _).pairwise
  have here : k ∈ sortedKeys keys := by
    rw [sortedKeys, Finset.mem_sort, List.mem_toFinset]
    exact mem
  generalize sortedKeys keys = all at sorted here few
  rw [List.rtake]
  have split := List.take_append_drop (all.length - bound) all
  rw [← split] at here sorted
  rcases List.mem_append.mp here with dropped | kept
  · obtain ⟨-, -, below⟩ := List.pairwise_append.mp sorted
    have above : (all.drop (all.length - bound)).filter (k ≤ ·) =
        all.drop (all.length - bound) := by
      apply List.filter_eq_self.mpr
      intro other later
      exact decide_eq_true (below k dropped other later).le
    have one : 0 < ((all.take (all.length - bound)).filter (k ≤ ·)).length :=
      List.length_pos_of_mem (List.mem_filter.mpr ⟨dropped, decide_eq_true le_rfl⟩)
    have some_dropped : 0 < (all.take (all.length - bound)).length :=
      List.length_pos_of_mem dropped
    rw [← split, List.filter_append, above, List.length_append, List.length_drop] at few
    rw [List.length_take] at some_dropped
    omega
  · exact kept

theorem length_le_of_grid {l : List Int} (distinct : l.Nodup) (step shift low : Int) (n : Nat)
    (grid : ∀ x ∈ l, ∃ j, low ≤ j ∧ j < low + n ∧ x = j * step - shift) : l.length ≤ n := by
  have inside : l.toFinset ⊆ (Finset.Ico low (low + n)).image fun j => j * step - shift := by
    intro x mem
    obtain ⟨j, from_low, below, rfl⟩ := grid x (List.mem_toFinset.mp mem)
    exact Finset.mem_image_of_mem _ (Finset.mem_Ico.mpr ⟨from_low, below⟩)
  have bound := (Finset.card_le_card inside).trans Finset.card_image_le
  rw [List.toFinset_card_of_nodup distinct, Int.card_Ico] at bound
  omega

end KiroRs.Lib.Tallies
