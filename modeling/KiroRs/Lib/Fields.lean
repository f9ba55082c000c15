/- Path: KiroRs/Lib/Fields
   layer: library
   digest: Lists of named fields written one behind another, with one separator between two fields
   and another one between a name and its value, and how they are read back. -/

import Mathlib.Data.List.Basic

set_option autoImplicit false
set_option relaxedAutoImplicit false

namespace KiroRs.Lib.Fields

variable {α : Type} [DecidableEq α]

/-- What stands before the first separator, and what stands behind it where there is one. -/
def splitOnce (sep : α) : List α → List α × Option (List α)
  | [] => ([], none)
  | a :: l =>
    if a = sep then ([], some l)
    else (a :: (splitOnce sep l).1, (splitOnce sep l).2)

def fields (between inside : α) (l : List α) : List (List α × Option (List α)) :=
  (l.splitOn between).map (splitOnce inside)

def written (between inside : α) (ps : List (List α × List α)) : List α :=
  [between].intercalate (ps.map fun p => p.1 ++ inside :: p.2)

variable {sep between inside : α} {front back l : List α}

theorem splitOnce_append (none_ : sep ∉ front) :
    splitOnce sep (front ++ sep :: back) = (front, some back) := by
  induction front with
  | nil => rw [List.nil_append, splitOnce, if_pos rfl]
  | cons a front ih =>
    obtain ⟨other, rest⟩ := not_or.mp (fun mem => none_ (List.mem_cons.mpr mem))
    rw [List.cons_append, splitOnce, if_neg (Ne.symm other), ih rest]

theorem splitOnce_none (none_ : sep ∉ l) : splitOnce sep l = (l, none) := by
  induction l with
  | nil => rfl
  | cons a l ih =>
    obtain ⟨other, rest⟩ := not_or.mp (fun mem => none_ (List.mem_cons.mpr mem))
    rw [splitOnce, if_neg (Ne.symm other), ih rest]

theorem splitOnce_eq (sep : α) (l : List α) :
    sep ∉ (splitOnce sep l).1 ∧
      l = (splitOnce sep l).1 ++ (splitOnce sep l).2.elim [] (sep :: ·) := by
  induction l with
  | nil => exact ⟨List.not_mem_nil, rfl⟩
  | cons a l ih =>
    obtain ⟨none_, eq⟩ := ih
    rw [splitOnce]
    by_cases here : a = sep
    · rw [if_pos here, here]
      exact ⟨List.not_mem_nil, rfl⟩
    · rw [if_neg here]
      refine ⟨fun mem => ?_, congrArg (a :: ·) eq⟩
      rcases List.mem_cons.mp mem with same | later
      · exact here same.symm
      · exact none_ later

theorem fields_written {ps : List (List α × List α)} (some_ : ps ≠ []) (apart : between ≠ inside)
    (names : ∀ p ∈ ps, between ∉ p.1 ∧ inside ∉ p.1) (values : ∀ p ∈ ps, between ∉ p.2) :
    fields between inside (written between inside ps) = ps.map fun p => (p.1, some p.2) := by
  have whole : ∀ piece ∈ ps.map (fun p => p.1 ++ inside :: p.2), between ∉ piece := by
    intro piece mem inside_
    obtain ⟨p, member, rfl⟩ := List.mem_map.mp mem
    rcases List.mem_append.mp inside_ with name | rest
    · exact (names p member).1 name
    · rcases List.mem_cons.mp rest with same | value
      · exact apart same
      · exact values p member value
  have nonempty : ps.map (fun p => p.1 ++ inside :: p.2) ≠ [] := by
    rwa [ne_eq, List.map_eq_nil_iff]
  rw [fields, written, List.splitOn_intercalate between whole nonempty, List.map_map]
  refine List.map_congr_left fun p member => ?_
  exact splitOnce_append (names p member).2

end KiroRs.Lib.Fields
