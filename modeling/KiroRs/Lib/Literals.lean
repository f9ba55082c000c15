/- Path: KiroRs/Lib/Literals
   layer: library
   digest: Dictionaries that are written out: what their keys hold, and when two of them are the
   same. -/

import Mathlib.Data.List.Induction
import Mathlib.Data.List.Sort
import KiroRs.Lib.Dicts

set_option autoImplicit false
set_option relaxedAutoImplicit false

namespace KiroRs.Lib.Dicts

variable {α : Type} {d d' : Dict α}

theorem Sorted.ext (sorted : Sorted d) (sorted' : Sorted d')
    (same : ∀ key, get d key = get d' key) : d = d' := by
  have irrefl : Std.Irrefl fun p q : String × α => p.1 < q.1 := ⟨fun p => lt_irrefl p.1⟩
  have pairs : d.Pairwise fun p q => p.1 < q.1 := List.pairwise_map.mp sorted
  have pairs' : d'.Pairwise fun p q => p.1 < q.1 := List.pairwise_map.mp sorted'
  refine pairs.eq_of_mem_iff pairs' fun p => ?_
  obtain ⟨key, value⟩ := p
  rw [mem_iff_get sorted.nodup, mem_iff_get sorted'.nodup, same]

theorem ofList_append_singleton (entries : List (String × α)) (p : String × α) :
    ofList (entries ++ [p]) = insert (ofList entries) p.1 p.2 := by
  rw [ofList, List.foldl_append]
  rfl

theorem sorted_ofList (entries : List (String × α)) : Sorted (ofList entries) := by
  induction entries using List.reverseRecOn with
  | nil => exact sorted_nil
  | append_singleton rest p ih =>
    rw [ofList_append_singleton]
    exact ih.insert

theorem lookup_cons_eq (p : String × α) (rest : List (String × α)) (key : String) :
    (p :: rest).lookup key = if key = p.1 then some p.2 else rest.lookup key := by
  rw [List.lookup_cons]
  by_cases here : key = p.1
  · rw [if_pos here, beq_iff_eq.mpr here]
  · rw [if_neg here, beq_eq_false_iff_ne.mpr here]

theorem get_foldl_insert (entries : List (String × α)) (d : Dict α) (key : String) :
    get (entries.foldl (fun d p => insert d p.1 p.2) d) key =
      (entries.reverse.lookup key).or (get d key) := by
  induction entries using List.reverseRecOn with
  | nil => rfl
  | append_singleton rest p ih =>
    rw [List.foldl_append, List.foldl_cons, List.foldl_nil, get_insert, ih, List.reverse_append,
      List.reverse_singleton, List.singleton_append, lookup_cons_eq]
    split_ifs <;> rfl

theorem get_ofList (entries : List (String × α)) (key : String) :
    get (ofList entries) key = entries.reverse.lookup key := by
  rw [ofList, get_foldl_insert, get_nil, Option.or_none]

theorem sorted_foldl_insert (entries : List (String × α)) (sorted : Sorted d) :
    Sorted (entries.foldl (fun d p => insert d p.1 p.2) d) := by
  induction entries generalizing d with
  | nil => exact sorted
  | cons p rest ih => exact ih sorted.insert

/-- Where each key occurs once, it does not matter from which end it is looked for. -/
theorem lookup_reverse (nodup : (keys d).Nodup) (key : String) :
    d.reverse.lookup key = d.lookup key := by
  have nodup_reverse : (keys d.reverse).Nodup := by
    rw [keys, List.map_reverse]
    exact List.nodup_reverse.mpr nodup
  apply Option.ext
  intro value
  have front : (key, value) ∈ d ↔ d.lookup key = some value := mem_iff_get nodup
  have back : (key, value) ∈ d.reverse ↔ d.reverse.lookup key = some value :=
    mem_iff_get nodup_reverse
  rw [← front, ← back, List.mem_reverse]

theorem foldl_insert_ofList (changes : List (String × α)) (sorted : Sorted d) :
    (ofList changes).foldl (fun d p => insert d p.1 p.2) d =
      changes.foldl (fun d p => insert d p.1 p.2) d := by
  refine (sorted_foldl_insert _ sorted).ext (sorted_foldl_insert _ sorted) fun key => ?_
  rw [get_foldl_insert, get_foldl_insert, lookup_reverse (sorted_ofList changes).nodup]
  exact congrArg (Option.or · (get d key)) (get_ofList changes key)

theorem ofList_congr {entries entries' : List (String × α)}
    (same : ∀ key, entries.reverse.lookup key = entries'.reverse.lookup key) :
    ofList entries = ofList entries' := by
  refine (sorted_ofList entries).ext (sorted_ofList entries') fun key => ?_
  rw [get_ofList, get_ofList, same]

end KiroRs.Lib.Dicts
