/- Path: KiroRs/Lib/Tables
   layer: library
   digest: Tables with a primary key as lists of rows, and rows that replace those of their key. -/

import Mathlib.Data.List.Nodup
import Mathlib.Data.List.Perm.Basic

set_option autoImplicit false
set_option relaxedAutoImplicit false

namespace KiroRs.Lib.Tables

variable {α κ : Type} [DecidableEq κ] (key : α → κ)

/-- `INSERT OR REPLACE`: the row of the same key goes, and the new row comes last. -/
def put (table : List α) (row : α) : List α := table.filter (fun r => key r ≠ key row) ++ [row]

def putAll (table rows : List α) : List α := rows.foldl (put key) table

variable {key} {table rows : List α} {row : α}

theorem mem_put {r : α} : r ∈ put key table row ↔ (r ∈ table ∧ key r ≠ key row) ∨ r = row := by
  simp [put]

theorem put_of_fresh (fresh : ∀ r ∈ table, key r ≠ key row) :
    put key table row = table ++ [row] := by
  have all : table.filter (fun r => key r ≠ key row) = table := by
    apply List.filter_eq_self.mpr
    intro r mem
    exact decide_eq_true (fresh r mem)
  rw [put, all]

/-- New rows with keys of their own are all there, in their order. -/
theorem putAll_of_fresh (distinct : (rows.map key).Nodup)
    (fresh : ∀ row ∈ rows, ∀ r ∈ table, key r ≠ key row) :
    putAll key table rows = table ++ rows := by
  induction rows generalizing table with
  | nil => exact (List.append_nil table).symm
  | cons row rows ih =>
    obtain ⟨new, distinct⟩ := List.nodup_cons.mp distinct
    have first := put_of_fresh (fresh row List.mem_cons_self)
    have rest : ∀ later ∈ rows, ∀ r ∈ table ++ [row], key r ≠ key later := by
      intro later mem r there
      rcases List.mem_append.mp there with old | here
      · exact fresh later (List.mem_cons_of_mem _ mem) r old
      · rw [List.mem_singleton.mp here]
        intro same
        exact new (List.mem_map.mpr ⟨later, mem, same.symm⟩)
    rw [putAll, List.foldl_cons, first, ← putAll, ih distinct rest, List.append_assoc]
    rfl

theorem nodup_put (distinct : (table.map key).Nodup) : ((put key table row).map key).Nodup := by
  rw [put, List.map_append]
  refine List.nodup_append'.mpr ⟨?_, List.nodup_singleton _, ?_⟩
  · exact (List.filter_sublist.map key).nodup distinct
  · apply List.disjoint_singleton.mpr
    intro mem
    obtain ⟨r, kept, same⟩ := List.mem_map.mp mem
    have ne := (List.mem_filter.mp kept).2
    simp [same] at ne

theorem nodup_putAll (distinct : (table.map key).Nodup) :
    ((putAll key table rows).map key).Nodup := by
  induction rows generalizing table with
  | nil => exact distinct
  | cons row rows ih => exact ih (nodup_put distinct)

theorem filter_put {p : α → Bool} (inside : p row = true) :
    (put key table row).filter p = put key (table.filter p) row := by
  rw [put, put, List.filter_append, List.filter_filter, List.filter_filter,
    List.filter_cons_of_pos inside, List.filter_nil]
  congr 1
  apply List.filter_congr
  intro r _
  exact Bool.and_comm _ _

theorem filter_putAll {p : α → Bool} (inside : ∀ row ∈ rows, p row = true) :
    (putAll key table rows).filter p = putAll key (table.filter p) rows := by
  induction rows generalizing table with
  | nil => rfl
  | cons row rows ih =>
    have first : (put key table row).filter p = put key (table.filter p) row :=
      filter_put (inside row List.mem_cons_self)
    rw [putAll, List.foldl_cons, ← putAll, ih fun r mem => inside r (List.mem_cons_of_mem _ mem),
      first]
    rfl

theorem filter_put_other {p : α → Bool} (outside : p row = false)
    (other : ∀ r, p r = true → key r ≠ key row) :
    (put key table row).filter p = table.filter p := by
  have absent : ¬ p row = true := by simp [outside]
  rw [put, List.filter_append, List.filter_filter, List.filter_cons_of_neg absent, List.filter_nil,
    List.append_nil]
  apply List.filter_congr
  intro r _
  cases inside : p r with
  | false => rfl
  | true => simp [other r inside]

theorem filter_putAll_other {p : α → Bool} (outside : ∀ row ∈ rows, p row = false)
    (other : ∀ row ∈ rows, ∀ r, p r = true → key r ≠ key row) :
    (putAll key table rows).filter p = table.filter p := by
  induction rows generalizing table with
  | nil => rfl
  | cons row rows ih =>
    have first : (put key table row).filter p = table.filter p :=
      filter_put_other (outside row List.mem_cons_self) (other row List.mem_cons_self)
    rw [putAll, List.foldl_cons, ← putAll, ih (fun r mem => outside r (List.mem_cons_of_mem _ mem))
      fun r mem => other r (List.mem_cons_of_mem _ mem), first]

end KiroRs.Lib.Tables
